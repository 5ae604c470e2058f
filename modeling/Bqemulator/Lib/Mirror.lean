import Bqemulator.Lib.Keyed

/-!
# Tables that mirror a dictionary

A dictionary is kept a second time as a table of rows, each of which can be read back as a record.
The table mirrors the dictionary if under every key the row is read as the record.
-/

namespace Keyed

open Except List Option

variable {K R Row ε : Type} [DecidableEq K] {rowKey : Row → K} {key : R → K}
  {read read' : Row → Except ε R} {t : Keyed rowKey} {d : Keyed key}

/-- **The table mirrors the dictionary**: under every key, the row is read as the record. -/
def Mirrors (read : Row → Except ε R) (t : Keyed rowKey) (d : Keyed key) : Prop :=
  ∀ k, (t.get? k).map read = (d.get? k).map .ok

theorem mirrors_empty : Mirrors read (empty : Keyed rowKey) (empty : Keyed key) := fun _ => rfl

theorem Mirrors.congr_right {d' : Keyed key} (h : Mirrors read t d) (hd : d.Same d') :
    Mirrors read t d' := fun k => by rw [h k, hd k]

variable {row : Row}

theorem Mirrors.exists_read (h : Mirrors read t d) (hro : row ∈ t.rows) :
    ∃ r, read row = .ok r ∧ d.get? (rowKey row) = some r := by
  have hk := h (rowKey row)
  rw [mem_iff_get?.1 hro] at hk
  obtain ⟨r, hr, hre⟩ := map_eq_some_iff.1 hk.symm
  exact ⟨r, hre.symm, hr⟩

theorem Mirrors.key_eq (h : Mirrors read t d) (hro : row ∈ t.rows) {r : R}
    (hr : read row = .ok r) : key r = rowKey row := by
  obtain ⟨r', hr', hg⟩ := h.exists_read hro
  rw [hr', ok.injEq] at hr
  exact hr ▸ key_of_get? hg

theorem map_get?_congr {k : K} (h : ∀ row ∈ t.rows, rowKey row = k → read' row = read row) :
    (t.get? k).map read' = (t.get? k).map read := by
  cases hk : t.get? k with
  | none => rfl
  | some row =>
    obtain ⟨hr, hke⟩ := get?_eq_some_iff.1 hk
    simp [h row hr hke]

/-- A record and its row are put, if the other rows are read as before. -/
theorem Mirrors.put (h : Mirrors read t d) {r : R} (hke : rowKey row = key r)
    (hr : read' row = .ok r)
    (hre : ∀ row' ∈ t.rows, rowKey row' ≠ key r → read' row' = read row') :
    Mirrors read' (t.put row) (d.put r) := by
  intro k
  rw [get?_put, get?_put, hke]
  by_cases hk : key r = k
  · simp [hk, hr]
  · rw [if_neg hk, if_neg hk, ← h k]
    exact map_get?_congr fun row' hr' hk' => hre row' hr' fun e => hk (e.symm.trans hk')

theorem Mirrors.erase (h : Mirrors read t d) {k : K}
    (hr : ∀ row ∈ t.rows, rowKey row ≠ k → read' row = read row) :
    Mirrors read' (t.erase k) (d.erase k) := by
  intro k'
  rw [get?_erase, get?_erase]
  by_cases hk : k' = k
  · simp [hk]
  · rw [if_neg hk, if_neg hk, ← h k']
    exact map_get?_congr fun row hro hk' => hr row hro fun e => hk (hk'.symm.trans e)

theorem Mirrors.removeIf (h : Mirrors read t d) {p : Row → Bool} {q : R → Bool}
    (hpq : ∀ row r, rowKey row = key r → read row = .ok r → p row = q r)
    (hrt : ∀ row ∈ t.rows, p row = false → read' row = read row) :
    Mirrors read' (t.removeIf p) (d.removeIf q) := by
  intro k
  rw [get?_removeIf, get?_removeIf]
  have hk := h k
  cases ht : t.get? k with
  | none =>
    rw [ht] at hk
    simp [map_eq_none_iff.1 hk.symm]
  | some row =>
    rw [ht] at hk
    obtain ⟨r, hr, hre⟩ := map_eq_some_iff.1 hk.symm
    have hro := (get?_eq_some_iff.1 ht).1
    have hp : p row = q r := hpq row r ((key_of_get? ht).trans (key_of_get? hr).symm) hre.symm
    rw [hr, filter_some, filter_some, ← hp]
    cases hpr : p row with
    | true => rfl
    | false =>
      have hr' : read' row = .ok r := (hrt row hro hpr).trans hre.symm
      simp [hr']

theorem exists_map_ok {rows : List Row} (h : ∀ row ∈ rows, ∃ r, read row = .ok r) :
    ∃ rs : List R, rows.map read = rs.map .ok := by
  induction rows with
  | nil => exact ⟨[], rfl⟩
  | cons row rows ih =>
    obtain ⟨r, hr⟩ := h row mem_cons_self
    obtain ⟨rs, hrs⟩ := ih fun row' hr' => h row' (mem_cons_of_mem row hr')
    exact ⟨r :: rs, by simp [hr, hrs]⟩

theorem Mirrors.exists_map_read (h : Mirrors read t d) :
    ∃ rs : List R, t.rows.map read = rs.map .ok :=
  exists_map_ok fun _ hro => (h.exists_read hro).imp fun _ hr => hr.1

theorem Mirrors.get?_eq_some_iff (h : Mirrors read t d) {k : K} {r : R} :
    d.get? k = some r ↔ ∃ row ∈ t.rows, rowKey row = k ∧ read row = .ok r := by
  have hk : (d.get? k).map ok = some (.ok r : Except ε R) ↔ d.get? k = some r := by
    simp
  rw [← hk, ← h k, map_eq_some_iff]
  simp only [Keyed.get?_eq_some_iff, and_assoc]

theorem Mirrors.nodup_keys (h : Mirrors read t d) {rs : List R}
    (hrs : t.rows.map read = rs.map .ok) : (rs.map key).Nodup := by
  have hk : (rs.map key).map (Except.ok (ε := ε)) = (t.rows.map rowKey).map .ok := by
    have hre : ∀ row ∈ t.rows, (read row).map key = .ok (rowKey row) := by
      intro row hro
      obtain ⟨r, hr, -⟩ := h.exists_read hro
      rw [hr, ← h.key_eq hro hr]
      rfl
    rw [List.map_map, List.map_map]
    calc rs.map (Except.ok ∘ key) = (rs.map Except.ok).map (Except.map key) := by
          rw [List.map_map]
          rfl
      _ = t.rows.map fun row => (read row).map key := by
          rw [← hrs, List.map_map]
          rfl
      _ = t.rows.map (Except.ok ∘ rowKey) := List.map_congr_left hre
  rw [List.map_injective_iff.2 (fun _ _ => Except.ok.inj) hk]
  exact t.nodup

/-- The records that are read from the table are those of the dictionary. -/
theorem Mirrors.same_ofList (h : Mirrors read t d) {rs : List R}
    (hrs : t.rows.map read = rs.map .ok) : (ofList rs : Keyed key).Same d := by
  have hm : ∀ r, r ∈ rs ↔ ∃ row ∈ t.rows, read row = .ok r := by
    intro r
    rw [← List.mem_map, hrs]
    simp
  have hn : (rs.map key).Nodup := h.nodup_keys hrs
  intro k
  rw [get?_ofList hn]
  ext r
  -- both sides are the record read from the row under `k`
  let t' : Keyed key := ⟨rs, hn⟩
  change t'.get? k = some r ↔ _
  rw [Keyed.get?_eq_some_iff, h.get?_eq_some_iff]
  rw [hm]
  constructor
  · rintro ⟨⟨row, hro, hr⟩, rfl⟩
    exact ⟨row, hro, (h.key_eq hro hr).symm, hr⟩
  · rintro ⟨row, hro, rfl, hr⟩
    exact ⟨⟨row, hro, hr⟩, h.key_eq hro hr⟩

end Keyed
