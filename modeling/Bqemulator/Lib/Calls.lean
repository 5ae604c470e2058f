import Bqemulator.Lib.Comp

/-!
# Computations that act through calls

A program that owns no data changes a store by calling its operations. A call that fails raises its
error and changes nothing; one that succeeds is left in the trace. What every call keeps, a run
keeps.
-/

namespace Comp

variable {τ ε σ α β : Type}

/-- The call of an operation: one that fails raises its error and changes nothing. -/
def call (act : σ → τ → Except ε σ) (op : τ) : Comp τ ε σ Unit := fun s =>
  match act s op with
  | .ok s' => ⟨[op], .ok (), s'⟩
  | .error e => ⟨[], .error e, s⟩

/-- The calls `t` lead from `s` to `s'`, each made where `G` allows it. -/
inductive Traced (act : σ → τ → Except ε σ) (G : σ → τ → Prop) : σ → List τ → σ → Prop where
  | nil (s : σ) : Traced act G s [] s
  | cons {s s' s'' : σ} {op : τ} {t : List τ} (allowed : G s op) (ok : act s op = .ok s')
      (rest : Traced act G s' t s'') : Traced act G s (op :: t) s''

variable {act : σ → τ → Except ε σ} {G : σ → τ → Prop} {s s' s'' : σ} {t t' : List τ} {op : τ}

theorem Traced.trans (h : Traced act G s t s') (h' : Traced act G s' t' s'') :
    Traced act G s (t ++ t') s'' := by
  induction h with
  | nil s => exact h'
  | cons a ok r ih => exact .cons a ok (ih h')

/-- Such runs compose. -/
theorem sequential_traced : Sequential (Traced act G) where
  refl := .nil
  trans := .trans

/-- An invariant of the allowed calls is an invariant of the run. -/
theorem Traced.invariant {I : σ → Prop}
    (hI : ∀ s op s', I s → G s op → act s op = .ok s' → I s') (h : Traced act G s t s')
    (hs : I s) : I s' := by
  induction h with
  | nil s => exact hs
  | cons a ok r ih => exact ih (hI _ _ _ hs a ok)

/-! ## One call -/

theorem call_cases (a : σ → τ → Except ε σ) (op : τ) (s : σ) :
    (∃ s', a s op = .ok s' ∧ call a op s = ⟨[op], .ok (), s'⟩) ∨
      ∃ e, a s op = .error e ∧ call a op s = ⟨[], .error e, s⟩ := by
  unfold call
  cases h : a s op with
  | ok s' => exact .inl ⟨s', rfl, rfl⟩
  | error e => exact .inr ⟨e, rfl, rfl⟩

theorem call_of_ok (h : act s op = .ok s') : call act op s = ⟨[op], .ok (), s'⟩ := by
  rw [call, h]

theorem run_call_bind {f : Unit → Comp τ ε σ β} (h : act s op = .ok s') :
    (call act op >>= f) s = ⟨op :: (f () s').trace, (f () s').result, (f () s').state⟩ := by
  rw [run_bind_of_ok (by rw [call_of_ok h]), call_of_ok h]
  rfl

theorem traced_call (h : G s op) : Traced act G s (call act op s).trace (call act op s).state := by
  rcases call_cases act op s with ⟨s', ho, heq⟩ | ⟨e, -, heq⟩
  · rw [heq]
    exact .cons h ho (.nil s')
  · rw [heq]
    exact .nil s

/-! ## What needs no call -/

theorem run_state_bind (f : σ → Comp τ ε σ β) (s : σ) : (state >>= f) s = f s s := rfl

end Comp
