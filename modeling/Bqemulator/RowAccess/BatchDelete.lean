import Bqemulator.Catalog.References

/-!
# Deleting several policies at once

`batch_delete` looks for every policy of the request and then deletes one after the other. An id
that is given twice passes the check and is missing at its second turn, when the ids before it are
gone. -/

namespace Bqemulator

namespace Requests

open Keyed Comp

/-- **Atomic batch deletion.** The request succeeds and removes the named policies and no other, or
it fails and all stay. -/
def DeletesAtomically (id : TableId) (policyIds : List String) (c : MemoryRepository) : Prop :=
  let r := batchDeletePolicies id policyIds c
  (r.result = .ok () ∧ ∀ key, r.state.rowAccess.get? key =
      if key.1 = id ∧ key.2 ∈ policyIds then none else c.rowAccess.get? key) ∨
    (∃ e, r.result = .error e) ∧ ∀ key, r.state.rowAccess.get? key = c.rowAccess.get? key

variable (id : TableId) {policyId : String} {c : MemoryRepository}

/-- The loop of `batch_delete`. -/
abbrev deleteEach (id : TableId) (policyIds : List String) : CatalogM Unit :=
  callEach (policyIds.map fun policyId => .deleteRowAccessPolicy (id, policyId) false)

theorem deleteEach_of_found (h : (c.rowAccess.get? (id, policyId)).isSome) (rest : List String) :
    let after := deleteEach id rest { c with rowAccess := c.rowAccess.erase (id, policyId) }
    ∃ t, deleteEach id (policyId :: rest) c = ⟨t, after.result, after.state⟩ := by
  refine ⟨_, run_call_bind (s := c) ?_⟩
  rw [MemoryRepository.perform, MemoryRepository.deleteRowAccessPolicy, deleteFrom, if_pos h]
  rfl

theorem deleteEach_of_missing (h : c.rowAccess.get? (id, policyId) = none) (rest : List String) :
    ∃ e, deleteEach id (policyId :: rest) c = ⟨[], .error e, c⟩ := by
  refine ⟨resourceNotFound (MemoryRepository.rapRef (id, policyId)), run_bind_of_raised ?_⟩
  rw [call, Comp.call, MemoryRepository.perform, MemoryRepository.deleteRowAccessPolicy,
    deleteFrom, h]
  rfl

theorem deleteEach_eq_ok_iff (ids : List String) (c : MemoryRepository) :
    (deleteEach id ids c).result = .ok () ↔
      ids.Nodup ∧ ∀ policyId ∈ ids, (c.rowAccess.get? (id, policyId)).isSome := by
  induction ids generalizing c with
  | nil => exact iff_of_true rfl (by simp)
  | cons policyId r ih =>
    cases h : c.rowAccess.get? (id, policyId) with
    | none =>
      obtain ⟨e, he⟩ := deleteEach_of_missing id h r
      simp [he, h]
    | some p =>
      -- what is found after the deletion is what was found before, without this id
      obtain ⟨t, ht⟩ := deleteEach_of_found id (Option.isSome_of_eq_some h) r
      rw [ht, ih]
      grind [get?_erase]

theorem get?_deleteEach (policyIds : List String) (c : MemoryRepository) (key : TableId × String) :
    ((deleteEach id policyIds c).result = .ok () →
      (deleteEach id policyIds c).state.rowAccess.get? key =
        if key.1 = id ∧ key.2 ∈ policyIds then none else c.rowAccess.get? key) ∧
    (c.rowAccess.get? key = none →
      (deleteEach id policyIds c).state.rowAccess.get? key = none) := by
  induction policyIds generalizing c with
  | nil => exact ⟨fun _ => by simp; rfl, fun h => h⟩
  | cons ids r ih =>
    cases h : c.rowAccess.get? (id, ids) with
    | none =>
      obtain ⟨e, he⟩ := deleteEach_of_missing id h r
      simp [he]
    | some p =>
      obtain ⟨t, ht⟩ := deleteEach_of_found id (Option.isSome_of_eq_some h) r
      have hr := ih { c with rowAccess := c.rowAccess.erase (id, ids) }
      rw [ht]
      grind [get?_erase]

/-- **Batch deletion is atomic** iff the ids are distinct or one of them names no policy. -/
theorem batchDelete_atomic_iff (id : TableId) (policyIds : List String) (c : MemoryRepository) :
    DeletesAtomically id policyIds c ↔
      policyIds.Nodup ∨ ∃ policyId ∈ policyIds, c.rowAccess.get? (id, policyId) = none := by
  have hm : missingPolicies c id policyIds ≠ [] ↔
      ∃ policyId ∈ policyIds, c.rowAccess.get? (id, policyId) = none := by
    simp [missingPolicies]
  have hr : batchDeletePolicies id policyIds c =
      (if policyIds = [] then _ else if missingPolicies c id policyIds ≠ [] then _
        else deleteEach id policyIds) c := run_bind_of_quiet rfl
  rw [DeletesAtomically, hr, ← hm]
  by_cases he : policyIds = []
  · rw [if_pos he]
    exact iff_of_true (.inr ⟨⟨_, rfl⟩, fun _ => rfl⟩) (.inl (by simp [he]))
  by_cases h : missingPolicies c id policyIds ≠ []
  · rw [if_neg he, if_pos h]
    exact iff_of_true (.inr ⟨⟨_, rfl⟩, fun _ => rfl⟩) (.inr h)
  have hfo : ∀ policyId ∈ policyIds, (c.rowAccess.get? (id, policyId)).isSome := by
    simpa [hm, Option.isSome_iff_ne_none] using h
  have ho := deleteEach_eq_ok_iff id policyIds c
  rw [if_neg he, if_neg h, or_iff_left h]
  constructor
  · rintro (⟨h', -⟩ | ⟨-, hs⟩)
    · exact (ho.1 h').1
    -- a failed loop has removed the first policy
    obtain ⟨policyId, r, rfl⟩ := List.exists_cons_of_ne_nil he
    have hf := hfo policyId List.mem_cons_self
    obtain ⟨t, ht⟩ := deleteEach_of_found id hf r
    rw [← hs, ht, (get?_deleteEach id r _ _).2 (by simp [get?_erase])] at hf
    cases hf
  · intro hn
    have hrt := ho.2 ⟨hn, hfo⟩
    exact .inl ⟨hrt, fun key => (get?_deleteEach id policyIds c key).1 hrt⟩

/-- Deleting `a`, `a` and `b` fails after `a` is gone. -/
theorem batchDelete_repeated :
    ¬ DeletesAtomically ⟨"p", "d", "t"⟩ ["a", "a", "b"]
      { rowAccess := ⟨[{ adultsOnly with policyId := "a" }, { adultsOnly with policyId := "b" }],
          by decide⟩ } := by
  rintro (⟨h, -⟩ | ⟨-, h⟩)
  · cases h
  · cases h (⟨"p", "d", "t"⟩, "a")

end Requests

end Bqemulator
