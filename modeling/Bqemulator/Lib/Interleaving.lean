import Mathlib

/-!
# Interleavings of tasks

Tasks with states of their own take steps on a shared store, one at a time and in any order. A step
is what a task does up to the next point where another may go on.
-/

namespace Interleaving

variable {L S ε : Type}

/-- The states of the tasks, and the store. -/
structure System (L S : Type) where
  tasks : List L
  store : S

/-- The step of one task. -/
def step (advance : L → S → L × S) (missing : ε) (sys : System L S) (k : Nat) :
    Except ε (System L S) :=
  match sys.tasks[k]? with
  | none => .error missing
  | some l => .ok ⟨sys.tasks.set k (advance l sys.store).1, (advance l sys.store).2⟩

variable {advance : L → S → L × S} {m : ε} {sys sys' : System L S} {k : Nat}

theorem step_eq_ok (h : step advance m sys k = .ok sys') :
    ∃ l, sys.tasks[k]? = some l ∧
      sys' = ⟨sys.tasks.set k (advance l sys.store).1, (advance l sys.store).2⟩ := by
  unfold step at h
  cases hl : sys.tasks[k]? with
  | none =>
    rw [hl] at h
    cases h
  | some l =>
    rw [hl] at h
    cases h
    exact ⟨l, rfl, rfl⟩

theorem mem_set {t : List L} {l l' x : L} (hl : t[k]? = some l)
    (hx : x ∈ t.set k l') : x = l' ∨ ∃ j, j ≠ k ∧ t[j]? = some x := by
  obtain ⟨j, hj⟩ := List.mem_iff_getElem?.1 hx
  by_cases hjk : j = k
  · subst hjk
    have hlt : j < t.length := (List.getElem?_eq_some_iff.1 hl).1
    rw [List.getElem?_set_self hlt] at hj
    exact .inl (Option.some.inj hj).symm
  · rw [List.getElem?_set_ne (Ne.symm hjk)] at hj
    exact .inr ⟨j, hjk, hj⟩

/-- How a step changes the number of tasks of a kind. -/
theorem countP_step {t : List L} {l : L} (p : L → Bool) (l' : L) (hl : t[k]? = some l) :
    (t.set k l').countP p + (if p l then 1 else 0) =
      t.countP p + if p l' then 1 else 0 := by
  induction t generalizing k with
  | nil => cases hl
  | cons x t ih =>
    cases k with
    | zero =>
      obtain rfl : x = l := Option.some.inj hl
      rw [List.set_cons_zero, List.countP_cons, List.countP_cons]
      omega
    | succ k =>
      have hr := ih (k := k) hl
      rw [List.set_cons_succ, List.countP_cons, List.countP_cons]
      omega

end Interleaving
