import Bqemulator.Lib.Keyed

/-!
# References between collections

The records of one collection name keys of another, as the foreign keys of a table do. The
references are good when every key that is named is there.
-/

namespace Keyed

variable {K R K' R' : Type} {key : R → K} {key' : R' → K'} [DecidableEq K] [DecidableEq K']
  {t : Keyed key} {u : Keyed key'} {f : R → K'}

/-- Every record of `t` has its key `f` in `u`. -/
def Refers (t : Keyed key) (f : R → K') (u : Keyed key') : Prop :=
  ∀ r ∈ t.rows, (u.get? (f r)).isSome

omit [DecidableEq K] in
theorem refers_empty (f : R → K') (u : Keyed key') : (empty : Keyed key).Refers f u := by
  intro r hr
  cases hr

theorem isSome_get?_put (u : Keyed key') (x : R') {k : K'} (h : (u.get? k).isSome) :
    ((u.put x).get? k).isSome := by
  rw [get?_put]
  split
  · rfl
  · exact h

section

variable (h : t.Refers f u)

include h

/-- The collection that refers gets a record. -/
theorem Refers.put {r : R} (hr : (u.get? (f r)).isSome) : (t.put r).Refers f u := by
  intro x hx
  rcases mem_put.1 hx with rfl | ⟨hx, -⟩
  · exact hr
  · exact h x hx

theorem Refers.update {r : R} (ho : (t.get? (key r)).isSome)
    (hf : ∀ x, key x = key r → f x = f r) : (t.put r).Refers f u := by
  obtain ⟨o, hg⟩ := Option.isSome_iff_exists.1 ho
  obtain ⟨hm, hk⟩ := get?_eq_some_iff.1 hg
  have hr := h o hm
  rw [hf o hk] at hr
  exact h.put hr

omit [DecidableEq K] in
theorem Refers.mono {t' : Keyed key} (hs : ∀ r ∈ t'.rows, r ∈ t.rows) : t'.Refers f u :=
  fun r hr => h r (hs r hr)

omit [DecidableEq K] in
theorem Refers.removeIf (p : R → Bool) : (t.removeIf p).Refers f u :=
  h.mono fun _ hr => List.mem_of_mem_filter hr

omit [DecidableEq K] in
theorem Refers.put_right (x : R') : t.Refers f (u.put x) :=
  fun r hr => isSome_get?_put u x (h r hr)

omit [DecidableEq K] in
/-- The collection that is referred to loses records. -/
theorem Refers.removeIf_right {q : R' → Bool}
    (hq : ∀ r ∈ t.rows, ∀ x ∈ u.rows, key' x = f r → q x = false) : t.Refers f (u.removeIf q) := by
  intro r hr
  obtain ⟨x, hx⟩ := Option.isSome_iff_exists.1 (h r hr)
  obtain ⟨hm, hk⟩ := get?_eq_some_iff.1 hx
  rw [get?_removeIf, hx, Option.filter_some, hq r hr x hm hk]
  rfl

omit [DecidableEq K] in
theorem Refers.erase_right {k : K'} (hk : ∀ r ∈ t.rows, f r ≠ k) : t.Refers f (u.erase k) :=
  h.removeIf_right fun r hr _ _ hke => decide_eq_false fun heq => hk r hr (hke.symm.trans heq)

end

end Keyed
