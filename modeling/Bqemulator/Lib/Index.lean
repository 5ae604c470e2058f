import Bqemulator.Lib.Keyed

/-!
# Tables of what records stand for

Some records stand for an entry of a table, each for at most one. The table is right if it has the
entries of the live records and no others: a change of a record is one of an entry as long as
entries of different records have different keys.
-/

namespace Keyed

variable {K L R E : Type} {key : R → K} {entryKey : E → L} {entry : R → Option E}
  {live live' : R → Prop} {t t' : Keyed entryKey}

/-- The table `t` has exactly the entries of the live records. -/
def Holds (entry : R → Option E) (live : R → Prop) (t : Keyed entryKey) : Prop :=
  ∀ e, e ∈ t.rows ↔ ∃ r, live r ∧ entry r = some e

/-- The live records but for the one under `k`. -/
def Others (key : R → K) (live : R → Prop) (k : K) (r : R) : Prop :=
  live r ∧ key r ≠ k

theorem Holds.congr (h : Holds entry live t) (hl : ∀ r, live r ↔ live' r) :
    Holds entry live' t := by
  obtain rfl : live = live' := funext fun r => propext (hl r)
  exact h

theorem Holds.erase_silent (h : Holds entry live t) {k : K}
    (ho : ∀ x, live x → key x = k → entry x = none) : Holds entry (Others key live k) t := by
  intro e
  rw [h e]
  constructor
  · rintro ⟨r, hr, he⟩
    refine ⟨r, ⟨hr, fun hk => ?_⟩, he⟩
    rw [ho r hr hk] at he
    cases he
  · rintro ⟨r, hr, he⟩
    exact ⟨r, hr.1, he⟩

theorem Holds.put_silent (h : Holds entry live t) {r : R} (hr : entry r = none)
    (ho : ∀ x, live x → key x = key r → entry x = none) :
    Holds entry (fun x => x = r ∨ Others key live (key r) x) t := by
  intro e
  rw [h.erase_silent ho e]
  constructor
  · rintro ⟨x, hx, he⟩
    exact ⟨x, .inr hx, he⟩
  · rintro ⟨x, rfl | hx, he⟩
    · rw [hr] at he
      cases he
    · exact ⟨x, hx, he⟩

variable [DecidableEq L]

/-- The record under a key is taken away. -/
theorem Holds.erase (h : Holds entry live t) {k : K} {l : L}
    (ho : ∀ x, live x → key x = k → ∀ e, entry x = some e → entryKey e = l)
    (hot : ∀ x, Others key live k x → ∀ e, entry x = some e → entryKey e ≠ l) :
    Holds entry (Others key live k) (t.erase l) := by
  intro e
  rw [mem_erase, h e]
  constructor
  · rintro ⟨⟨r, hr, he⟩, hn⟩
    exact ⟨r, ⟨hr, fun hk => hn (ho r hr hk e he)⟩, he⟩
  · rintro ⟨r, hr, he⟩
    exact ⟨⟨r, hr.1, he⟩, hot r hr e he⟩

/-- A record takes the place of the one under its key. -/
theorem Holds.put (h : Holds entry live t) {r : R} {e : E} (hr : entry r = some e)
    (ho : ∀ x, live x → key x = key r → ∀ e', entry x = some e' → entryKey e' = entryKey e)
    (hot : ∀ x, Others key live (key r) x → ∀ e', entry x = some e' →
      entryKey e' ≠ entryKey e) :
    Holds entry (fun x => x = r ∨ Others key live (key r) x) (t.put e) := by
  intro e'
  have hre := h.erase ho hot e'
  rw [mem_erase] at hre
  rw [mem_put]
  constructor
  · rintro (rfl | hol)
    · exact ⟨r, .inl rfl, hr⟩
    · obtain ⟨x, hx, he'⟩ := hre.1 hol
      exact ⟨x, .inr hx, he'⟩
  · rintro ⟨x, rfl | hx, he'⟩
    · exact .inl (Option.some.inj (he'.symm.trans hr))
    · exact .inr (hre.2 ⟨x, hx, he'⟩)

end Keyed
