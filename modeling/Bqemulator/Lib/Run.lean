import Mathlib

/-!
# Runs of a machine whose steps may fail

A machine is a step function into `Except`; a run follows a list of inputs and ends at the first
input whose step fails.
-/

namespace Run

variable {σ α ε : Type} (step : σ → α → Except ε σ)

/-- `P` holds in every state the run from `s` reaches. -/
def Always (P : σ → Prop) : σ → List α → Prop
  | s, [] => P s
  | s, a :: as => P s ∧ ∀ s', step s a = .ok s' → Always P s' as

/-- Every step the run from `s` makes meets the condition `C`. -/
def EachStep (C : σ → α → Prop) : σ → List α → Prop
  | _, [] => True
  | s, a :: as => ∀ s', step s a = .ok s' → C s a ∧ EachStep C s' as

variable {step} {I P : σ → Prop} {C : σ → α → Prop} {s : σ} {as : List α}

theorem Always.head (h : Always step P s as) : P s := by
  cases as with
  | nil => exact h
  | cons => exact h.1

/-- An invariant that the steps which meet a condition keep holds along every run of them. -/
theorem always_of_eachStep (hP : ∀ s, I s → P s)
    (hst : ∀ s a s', I s → C s a → step s a = .ok s' → I s') (hs : I s)
    (h : EachStep step C s as) : Always step P s as := by
  induction as generalizing s with
  | nil => exact hP s hs
  | cons a as ih =>
    refine ⟨hP s hs, fun s' hs' => ?_⟩
    obtain ⟨hC, hr⟩ := h s' hs'
    exact ih (hst s a s' hs hC hs') hr

/-- If the condition is also necessary, the property holds along these runs only. -/
theorem always_iff_eachStep (hP : ∀ s, I s → P s)
    (hst : ∀ s a s', I s → C s a → step s a = .ok s' → I s')
    (hn : ∀ s a s', I s → step s a = .ok s' → P s' → C s a) (hs : I s) :
    Always step P s as ↔ EachStep step C s as := by
  refine ⟨fun h => ?_, always_of_eachStep hP hst hs⟩
  induction as generalizing s with
  | nil => trivial
  | cons a as ih =>
    intro s' hs'
    have hr := h.2 s' hs'
    have hC := hn s a s' hs hs' hr.head
    exact ⟨hC, ih (hst s a s' hs hC hs') hr⟩

/-- A condition that implies another at the states of an invariant is met by fewer runs. -/
theorem eachStep_of_eachStep {D : σ → α → Prop} (hCD : ∀ s a, I s → C s a → D s a)
    (hst : ∀ s a s', I s → C s a → step s a = .ok s' → I s') (hs : I s)
    (h : EachStep step C s as) : EachStep step D s as := by
  induction as generalizing s with
  | nil => trivial
  | cons a as ih =>
    intro s' hs'
    obtain ⟨hC, hr⟩ := h s' hs'
    exact ⟨hCD s a hs hC, ih (hst s a s' hs hC hs') hr⟩

theorem eachStep_of_invariant (hC : ∀ s a, I s → C s a)
    (hst : ∀ s a s', I s → step s a = .ok s' → I s') (hs : I s) (as : List α) :
    EachStep step C s as := by
  induction as generalizing s with
  | nil => trivial
  | cons a as ih => exact fun s' hs' => ⟨hC s a hs, ih (hst s a s' hs hs')⟩

theorem always_of_invariant (hP : ∀ s, I s → P s)
    (hst : ∀ s a s', I s → step s a = .ok s' → I s') (hs : I s) (as : List α) :
    Always step P s as :=
  always_of_eachStep (C := fun _ _ => True) hP (fun s a s' hI _ => hst s a s' hI) hs
    (eachStep_of_invariant (fun _ _ _ => trivial) hst hs as)

theorem eachStep_congr {D : σ → α → Prop} (hCD : ∀ s a, I s → (C s a ↔ D s a))
    (hst : ∀ s a s', I s → C s a → step s a = .ok s' → I s') (hs : I s) :
    EachStep step C s as ↔ EachStep step D s as := by
  constructor
  · exact eachStep_of_eachStep (fun s a hI => (hCD s a hI).1) hst hs
  · refine eachStep_of_eachStep (fun s a hI => (hCD s a hI).2) (fun s a s' hI hD => ?_) hs
    exact hst s a s' hI ((hCD s a hI).2 hD)

end Run
