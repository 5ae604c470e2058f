import Mathlib

/-!
# Records kept under a key

A collection of records of which no two share a key, in the order in which they came: a dictionary
whose values carry their keys, or a table with a primary key.
-/

/-- **A collection of records** of which no two share a key. -/
structure Keyed {K R : Type} (key : R → K) where
  rows : List R
  nodup : (rows.map key).Nodup

namespace Keyed

open List Option

variable {K R : Type} {key : R → K}

def empty : Keyed key := ⟨[], nodup_nil⟩

/-- The collection without some records. -/
def removeIf (t : Keyed key) (p : R → Bool) : Keyed key where
  rows := t.rows.filter fun r => !p r
  nodup := t.nodup.sublist (filter_sublist.map key)

def mapRows (t : Keyed key) (f : R → R) (hf : ∀ r, key (f r) = key r) : Keyed key where
  rows := t.rows.map f
  nodup := by
    have hkeys : key ∘ f = key := funext hf
    rw [List.map_map, hkeys]
    exact t.nodup

variable [DecidableEq K]

/-- The record under a key. -/
def get? (t : Keyed key) (k : K) : Option R :=
  t.rows.find? fun r => key r = k

/-- Two collections are the same dictionary: they hold the same record under every key. -/
def Same (t t' : Keyed key) : Prop :=
  ∀ k, t.get? k = t'.get? k

def erase (t : Keyed key) (k : K) : Keyed key :=
  t.removeIf fun r => key r = k

variable {t : Keyed key} {r : R} {k : K}

/-- What is found under a key is the record with it. -/
theorem get?_eq_some_iff : t.get? k = some r ↔ r ∈ t.rows ∧ key r = k := by
  constructor
  · intro h
    exact ⟨mem_of_find?_eq_some h, by simpa using find?_some h⟩
  rintro ⟨hr, rfl⟩
  -- whatever is found first has the key of `r`, and only `r` has it
  cases h : t.get? (key r) with
  | none => simpa using find?_eq_none.1 h r hr
  | some r' =>
    have hk : key r' = key r := by simpa using find?_some h
    rw [inj_on_of_nodup_map t.nodup (mem_of_find?_eq_some h) hr hk]

theorem key_of_get? (h : t.get? k = some r) : key r = k :=
  (get?_eq_some_iff.1 h).2

theorem mem_iff_get? : r ∈ t.rows ↔ t.get? (key r) = some r := by
  simp [get?_eq_some_iff]

theorem get?_eq_none_iff : t.get? k = none ↔ ∀ r ∈ t.rows, key r ≠ k := by
  simp [get?]

@[simp] theorem get?_empty (k : K) : (empty : Keyed key).get? k = none := rfl

/-! ## Insertion and replacement -/

def replace (t : Keyed key) (r : R) : Keyed key where
  rows := t.rows.map fun x => if key x = key r then r else x
  nodup := by
    have hkeys : (key ∘ fun x => if key x = key r then r else x) = key := by
      ext x
      by_cases hx : key x = key r <;> simp [hx]
    rw [List.map_map, hkeys]
    exact t.nodup

def append (t : Keyed key) (r : R) (h : t.get? (key r) = none) : Keyed key where
  rows := t.rows ++ [r]
  nodup := by
    rw [map_append, map_singleton, nodup_append]
    refine ⟨t.nodup, nodup_singleton _, ?_⟩
    rintro k hk k' hk' rfl
    obtain ⟨x, hx, rfl⟩ := mem_map.1 hk
    rw [mem_singleton] at hk'
    exact get?_eq_none_iff.1 h x hx hk'

/-- The collection with a record under its key, in place of the one that was there. -/
def put (t : Keyed key) (r : R) : Keyed key :=
  if h : t.get? (key r) = none then t.append r h else t.replace r

theorem mem_put {x : R} : x ∈ (t.put r).rows ↔ x = r ∨ x ∈ t.rows ∧ key x ≠ key r := by
  unfold put
  split
  · rename_i h
    have hn : ∀ y ∈ t.rows, key y ≠ key r := get?_eq_none_iff.1 h
    simp only [append, mem_append, mem_singleton]
    constructor
    · rintro (hx | rfl)
      · exact .inr ⟨hx, hn x hx⟩
      · exact .inl rfl
    · rintro (rfl | ⟨hx, -⟩)
      · exact .inr rfl
      · exact .inl hx
  · rename_i h
    obtain ⟨y, hy⟩ := ne_none_iff_exists'.1 h
    obtain ⟨hm, hke⟩ := get?_eq_some_iff.1 hy
    simp only [replace, List.mem_map]
    constructor
    · rintro ⟨z, hz, rfl⟩
      by_cases hk : key z = key r
      · simp [hk]
      · simp [hk, hz]
    · rintro (rfl | ⟨hx, hn⟩)
      · exact ⟨y, hm, by simp [hke]⟩
      · exact ⟨x, hx, by simp [hn]⟩

/-- What is found after a record was put. -/
theorem get?_put (t : Keyed key) (r : R) (k : K) :
    (t.put r).get? k = if key r = k then some r else t.get? k := by
  ext x
  rw [get?_eq_some_iff, mem_put]
  by_cases hk : key r = k
  · subst hk
    simp only [if_true, some.injEq]
    constructor
    · rintro ⟨rfl | ⟨-, hn⟩, hke⟩
      · rfl
      · exact absurd hke hn
    · rintro rfl
      exact ⟨.inl rfl, rfl⟩
  · rw [if_neg hk, get?_eq_some_iff]
    constructor
    · rintro ⟨rfl | ⟨hx, -⟩, hke⟩
      · exact absurd hke hk
      · exact ⟨hx, hke⟩
    · rintro ⟨hx, rfl⟩
      exact ⟨.inr ⟨hx, fun h => hk h.symm⟩, rfl⟩

/-- Records inserted in turn until a key is taken: the collection then, and whether all went in. -/
def insertEach (t : Keyed key) : List R → Keyed key × Bool
  | [] => (t, true)
  | r :: rs => if h : t.get? (key r) = none then insertEach (t.append r h) rs else (t, false)

theorem insertEach_of_new {rs : List R} (hnd : (rs.map key).Nodup)
    (hn : ∀ r ∈ rs, t.get? (key r) = none) :
    (t.insertEach rs).1.rows = t.rows ++ rs ∧ (t.insertEach rs).2 = true := by
  induction rs generalizing t with
  | nil => simp [insertEach]
  | cons r rs ih =>
    rw [map_cons, nodup_cons] at hnd
    have hr : t.get? (key r) = none := hn r mem_cons_self
    have hre : ∀ x ∈ rs, (t.append r hr).get? (key x) = none := by
      intro x hx
      rw [get?_eq_none_iff]
      intro y hy hyx
      simp only [append, mem_append, mem_singleton] at hy
      rcases hy with hy | rfl
      · exact get?_eq_none_iff.1 (hn x (mem_cons_of_mem r hx)) y hy hyx
      · exact hnd.1 (hyx ▸ mem_map_of_mem hx)
    rw [insertEach, dif_pos hr]
    simpa [append] using ih hnd.2 hre

/-! ## Deletion -/

/-- What is found after some records were removed. -/
theorem get?_removeIf (t : Keyed key) (p : R → Bool) (k : K) :
    (t.removeIf p).get? k = (t.get? k).filter fun r => !p r := by
  ext x
  rw [get?_eq_some_iff, filter_eq_some_iff, get?_eq_some_iff]
  simp only [removeIf, mem_filter]
  exact and_right_comm

theorem same_removeIf {p : R → Bool} (h : ∀ r ∈ t.rows, p r = false) : t.Same (t.removeIf p) := by
  intro k
  rw [get?_removeIf]
  cases hk : t.get? k with
  | none => rfl
  | some r => simp [Option.filter, h r (get?_eq_some_iff.1 hk).1]

theorem get?_erase (t : Keyed key) (k k' : K) :
    (t.erase k).get? k' = if k' = k then none else t.get? k' := by
  rw [erase, get?_removeIf]
  cases h : t.get? k' with
  | none => simp
  | some r =>
    have hke := key_of_get? h
    by_cases hk : k' = k <;> simp [hke, hk]

theorem mem_erase : r ∈ (t.erase k).rows ↔ r ∈ t.rows ∧ key r ≠ k := by
  simp [erase, removeIf]

theorem get?_mapRows (t : Keyed key) (f : R → R) (hf : ∀ r, key (f r) = key r) (k : K) :
    (t.mapRows f hf).get? k = (t.get? k).map f := by
  simp only [get?, mapRows, find?_map]
  congr 2
  ext r
  simp [hf r]

/-! ## Collections of lists -/

def ofList (rows : List R) : Keyed key :=
  rows.foldl put empty

variable {rows : List R}

theorem get?_foldl_put (h : (rows.map key).Nodup) (t : Keyed key) (k : K) :
    (rows.foldl put t).get? k = (rows.find? fun r => key r = k).or (t.get? k) := by
  induction rows generalizing t with
  | nil => rfl
  | cons r rows ih =>
    rw [map_cons, nodup_cons] at h
    rw [foldl_cons, ih h.2, get?_put, find?_cons]
    by_cases hk : key r = k
    · -- no later record has the key of `r`
      have hr : rows.find? (fun x => key x = k) = none := by
        refine find?_eq_none.2 fun x hx hxk => h.1 ?_
        rw [hk, ← of_decide_eq_true hxk]
        exact mem_map_of_mem hx
      simp [hk, hr]
    · simp [hk]

theorem get?_ofList (h : (rows.map key).Nodup) (k : K) :
    (ofList rows : Keyed key).get? k = rows.find? fun r => key r = k := by
  rw [ofList, get?_foldl_put h, get?_empty, or_none]

theorem same_ofList (h : rows.Perm t.rows) : (ofList rows : Keyed key).Same t := by
  intro k
  have hn : (rows.map key).Nodup := (h.map key).nodup_iff.2 t.nodup
  rw [get?_ofList hn]
  refine ext fun r => ?_
  have hr : (⟨rows, hn⟩ : Keyed key).get? k = some r ↔ t.get? k = some r := by
    rw [get?_eq_some_iff, get?_eq_some_iff, h.mem_iff]
  exact hr

/-! ## Groups -/

theorem perm_flatMap_filter {α : Type} {home : α → K} :
    ∀ {t : List R}, (t.map key).Nodup → ∀ {l : List α}, (∀ a ∈ l, ∃ m ∈ t, key m = home a) →
    (t.flatMap fun m => l.filter fun a => home a = key m).Perm l
  | [], _, l, h => by
    cases l with
    | nil => exact List.Perm.refl _
    | cons a l =>
      obtain ⟨m, hm, -⟩ := h a List.mem_cons_self
      cases hm
  | m :: t, hn, l, h => by
    rw [List.map_cons, List.nodup_cons] at hn
    -- the groups of the others are those of the records with other keys
    have ho : (t.flatMap fun m' => l.filter fun a => home a = key m') =
        t.flatMap fun m' => (l.filter fun a => !decide (home a = key m)).filter
          fun a => home a = key m' := by
      apply List.flatMap_congr
      intro m' hm'
      rw [List.filter_filter]
      apply List.filter_congr
      intro a _
      by_cases ha : home a = key m'
      · have hne : key m' ≠ key m := fun heq => hn.1 (List.mem_map.2 ⟨m', hm', heq⟩)
        simp [ha, hne]
      · simp [ha]
    have hr := perm_flatMap_filter hn.2 (l := l.filter fun a => !decide (home a = key m))
      (by
        intro a ha
        obtain ⟨hal, hne⟩ := List.mem_filter.1 ha
        obtain ⟨m', hm', hk⟩ := h a hal
        rcases List.mem_cons.1 hm' with rfl | hm'
        · simp [hk] at hne
        · exact ⟨m', hm', hk⟩)
    rw [List.flatMap_cons, ho]
    exact (hr.append_left _).trans (List.filter_append_perm _ l)

/-- Records in groups by key. -/
theorem perm_groups (t : Keyed key) {α : Type} {home : α → K} {l : List α}
    (h : ∀ a ∈ l, ∃ m ∈ t.rows, key m = home a) :
    (t.rows.flatMap fun m => l.filter fun a => home a = key m).Perm l :=
  perm_flatMap_filter t.nodup h

end Keyed
