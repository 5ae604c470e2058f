import Bqemulator.Lib.Interleaving

/-!
# Serial executions

Tasks that serve requests, one each. If a task changes the store only in the step that ends it, and
then as its request does alone, the store is at any time the one of the requests that are served, in
the order in which they have ended.
-/

namespace Interleaving

open List

variable {Q L S : Type}

/-- Requests served one after the other. -/
def serveAll (serve : Q → S → Option S) : List Q → S → Option S
  | [], s => some s
  | q :: qs, s => (serve q s).bind (serveAll serve qs)

theorem serveAll_append (serve : Q → S → Option S) (qs q' : List Q) (s : S) :
    serveAll serve (qs ++ q') s = (serveAll serve qs s).bind (serveAll serve q') := by
  induction qs generalizing s with
  | nil => rfl
  | cons q qs ih =>
    show (serve q s).bind (serveAll serve (qs ++ q')) = ((serve q s).bind _).bind _
    cases serve q s with
    | none => rfl
    | some s' => exact ih s'

def inOrder (qs : List Q) (order : List Nat) : List Q := order.filterMap fun k => qs[k]?

theorem inOrder_range : ∀ qs : List Q, inOrder qs (range qs.length) = qs
  | [] => rfl
  | q :: qs => by
    have hr := inOrder_range qs
    rw [inOrder] at hr ⊢
    rw [length_cons, range_succ_eq_map, filterMap_cons, filterMap_map]
    exact congrArg (q :: ·) hr

theorem inOrder_concat {qs : List Q} {k : Nat} {q : Q} (hq : qs[k]? = some q) (o : List Nat) :
    inOrder qs (o ++ [k]) = inOrder qs o ++ [q] := by
  rw [inOrder, filterMap_append, filterMap_cons, hq]
  rfl

/-- A system after requests that have been served in an order. -/
structure Served (serve : Q → S → Option S) (ended : L → Bool) (qs : List Q) (first : S)
    (order : List Nat) (sys : System L S) : Prop where
  nodup : order.Nodup
  mem_iff : ∀ k, k ∈ order ↔ ∃ l, sys.tasks[k]? = some l ∧ ended l = true
  length : sys.tasks.length = qs.length
  served : serveAll serve (inOrder qs order) first = some sys.store

namespace Served

variable {serve : Q → S → Option S} {ended : L → Bool} {qs : List Q} {f : S}
  {order : List Nat} {sys : System L S} {k : Nat} {l l' : L}

theorem initial {start : Q → L} (hs : ∀ q, ended (start q) = false) :
    Served serve ended qs f [] ⟨qs.map start, f⟩ where
  nodup := nodup_nil
  mem_iff k := by
    refine iff_of_false not_mem_nil ?_
    rintro ⟨l, hl, he⟩
    rw [getElem?_map] at hl
    obtain ⟨q, -, rfl⟩ := Option.map_eq_some_iff.1 hl
    rw [hs] at he
    cases he
  length := length_map start
  served := rfl

theorem getElem?_set_iff {p : L → Prop} (hl : sys.tasks[k]? = some l) (j : Nat) :
    (∃ x, (sys.tasks.set k l')[j]? = some x ∧ p x) ↔
      if j = k then p l' else ∃ x, sys.tasks[j]? = some x ∧ p x := by
  by_cases hj : j = k
  · subst hj
    have hlt : j < sys.tasks.length := (List.getElem?_eq_some_iff.1 hl).1
    rw [if_pos rfl, List.getElem?_set_self hlt]
    simp
  · rw [if_neg hj, List.getElem?_set_ne (Ne.symm hj)]

section

variable (h : Served serve ended qs f order sys)

include h

/-- A step that keeps the store ends no task. -/
theorem quiet (hl : sys.tasks[k]? = some l) (he : ended l' = ended l) :
    Served serve ended qs f order ⟨sys.tasks.set k l', sys.store⟩ where
  nodup := h.nodup
  mem_iff j := by
    rw [getElem?_set_iff hl, h.mem_iff]
    by_cases hj : j = k
    · subst hj
      rw [if_pos rfl, hl, he]
      simp
    · rw [if_neg hj]
  length := by rw [length_set, h.length]
  served := h.served

/-- The step that ends a task serves its request. -/
theorem ending (hl : sys.tasks[k]? = some l)
    (hr : ended l = false) (he : ended l' = true) {q : Q} (hq : qs[k]? = some q) {s' : S}
    (hs : serve q sys.store = some s') :
    Served serve ended qs f (order ++ [k]) ⟨sys.tasks.set k l', s'⟩ where
  nodup := by
    refine nodup_append.2 ⟨h.nodup, nodup_singleton k, ?_⟩
    -- a task that is running is not among those that have ended
    rintro j hj _ (_ | _) rfl
    · obtain ⟨x, hx, ht⟩ := (h.mem_iff j).1 hj
      rw [hl] at hx
      rw [← Option.some.inj hx, hr] at ht
      cases ht
    · contradiction
  mem_iff j := by
    rw [getElem?_set_iff hl, mem_append, h.mem_iff, mem_singleton]
    by_cases hjk : j = k
    · simp [hjk, he]
    · simp [hjk]
  length := by rw [length_set, h.length]
  served := by
    rw [inOrder_concat hq, serveAll_append, h.served]
    show (serve q sys.store).bind some = some s'
    rw [hs]
    rfl

/-- Once all tasks have ended, all requests are served. -/
theorem perm (ha : ∀ l ∈ sys.tasks, ended l = true) : (inOrder qs order).Perm qs := by
  have ho : order.Perm (List.range qs.length) := by
    rw [List.perm_ext_iff_of_nodup h.nodup List.nodup_range]
    intro k
    rw [h.mem_iff, List.mem_range, ← h.length]
    constructor
    · rintro ⟨l, hl, -⟩
      exact (List.getElem?_eq_some_iff.1 hl).1
    · intro hk
      exact ⟨_, List.getElem?_eq_getElem hk, ha _ (List.getElem_mem hk)⟩
  have hp := ho.filterMap fun k => qs[k]?
  rwa [← inOrder, ← inOrder, inOrder_range] at hp

end

end Served

end Interleaving
