import Mathlib

/-!
# Computations with state, exceptions and a trace

A computation reads and writes a state, may end in an exception, and leaves a trace of events. The
state survives an exception, so that a handler goes on in the state in which it was raised. No
computation can read the trace. -/

/-- The trace, the result and the last state of a run. -/
structure Outcome (τ ε σ α : Type) where
  trace : List τ
  result : Except ε α
  state : σ

/-- A computation is a function from states to outcomes. -/
def Comp (τ ε σ α : Type) : Type := σ → Outcome τ ε σ α

namespace Comp

open Except

variable {τ ε σ α β : Type}

def ret (a : α) : Comp τ ε σ α := fun s => ⟨[], .ok a, s⟩

variable (c : Comp τ ε σ α) (f : α → Comp τ ε σ β)

/-- The second runs in the state the first has left, unless that has raised. -/
def andThen : Comp τ ε σ β := fun s =>
  match (c s).result with
  | .ok a => ⟨(c s).trace ++ (f a (c s).state).trace, (f a (c s).state).result,
      (f a (c s).state).state⟩
  | .error e => ⟨(c s).trace, .error e, (c s).state⟩

instance : Monad (Comp τ ε σ) where
  pure := ret
  bind := andThen

def raise (e : ε) : Comp τ ε σ α := fun s => ⟨[], .error e, s⟩

/-- The handler goes on in the state in which the exception was raised. -/
def tryCatch (handler : ε → Comp τ ε σ α) : Comp τ ε σ α := fun s =>
  match (c s).result with
  | .ok a => ⟨(c s).trace, .ok a, (c s).state⟩
  | .error e => ⟨(c s).trace ++ (handler e (c s).state).trace, (handler e (c s).state).result,
      (handler e (c s).state).state⟩

/-- A change that is made however the computation ends. -/
def finally_ (change : σ → σ) : Comp τ ε σ α := fun s =>
  ⟨(c s).trace, (c s).result, change (c s).state⟩

def state : Comp τ ε σ σ := fun s => ⟨[], .ok s, s⟩

def modify (change : σ → σ) : Comp τ ε σ Unit := fun s => ⟨[], .ok (), change s⟩

def lift (f : σ → Except ε α) : Comp τ ε σ α := fun s => ⟨[], f s, s⟩

def emit (event : τ) : Comp τ ε σ Unit := fun s => ⟨[event], .ok (), s⟩

theorem bind_eq : c >>= f = c.andThen f := rfl

theorem bind_assoc {γ : Type} (g : β → Comp τ ε σ γ) :
    c >>= f >>= g = c >>= fun a => f a >>= g := by
  funext s
  simp only [bind_eq, andThen]
  cases (c s).result with
  | error e => rfl
  | ok a => cases h : (f a (c s).state).result <;> simp [h]

theorem ret_bind (a : α) (f : α → Comp τ ε σ β) : (pure a : Comp τ ε σ α) >>= f = f a := rfl

/-! ## Runs of composed computations -/

variable {g : σ → Except ε α}

section Run

variable {c : Comp τ ε σ α} {f : α → Comp τ ε σ β} {handler : ε → Comp τ ε σ α} {s : σ} {a : α}
  {e : ε}

theorem run_bind_of_ok (h : (c s).result = .ok a) :
    (c >>= f) s = ⟨(c s).trace ++ (f a (c s).state).trace, (f a (c s).state).result,
      (f a (c s).state).state⟩ := by
  rw [bind_eq, andThen, h]

theorem run_bind_of_error (h : (c s).result = .error e) :
    (c >>= f) s = ⟨(c s).trace, .error e, (c s).state⟩ := by
  rw [bind_eq, andThen, h]

theorem run_bind_pure (g : α → β) :
    (c >>= fun a => pure (g a)) s = ⟨(c s).trace, (c s).result.map g, (c s).state⟩ := by
  cases h : (c s).result with
  | error e => exact run_bind_of_error h
  | ok a =>
    rw [run_bind_of_ok h]
    simp [pure, ret, Except.map]

theorem run_bind_of_quiet {s' : σ} (h : c s = ⟨[], .ok a, s'⟩) : (c >>= f) s = f a s' := by
  rw [bind_eq, andThen, h]
  rfl

theorem run_bind_of_raised {t : List τ} {s' : σ} (h : c s = ⟨t, .error e, s'⟩) :
    (c >>= f) s = ⟨t, .error e, s'⟩ := by
  rw [bind_eq, andThen, h]

theorem run_lift_bind_of_ok (h : g s = .ok a) : (lift g >>= f) s = f a s :=
  run_bind_of_quiet (by rw [lift, h])

theorem run_lift_bind_of_error (h : g s = .error e) : (lift g >>= f) s = ⟨[], .error e, s⟩ :=
  run_bind_of_raised (by rw [lift, h])

theorem run_tryCatch_of_ok (h : (c s).result = .ok a) :
    tryCatch c handler s = ⟨(c s).trace, .ok a, (c s).state⟩ := by
  rw [tryCatch, h]

theorem run_tryCatch_of_error (h : (c s).result = .error e) :
    tryCatch c handler s = ⟨(c s).trace ++ (handler e (c s).state).trace,
      (handler e (c s).state).result, (handler e (c s).state).state⟩ := by
  rw [tryCatch, h]

end Run

/-! ## Runs without their events -/

/-- The run from `s` ends in `s'` with a value. -/
def Yields (c : Comp τ ε σ α) (s : σ) (a : α) (s' : σ) : Prop :=
  (c s).result = .ok a ∧ (c s).state = s'

/-- The run from `s` ends in `s'` with an exception. -/
def Raises (c : Comp τ ε σ α) (s : σ) (e : ε) (s' : σ) : Prop :=
  (c s).result = .error e ∧ (c s).state = s'

section Yields

variable {c : Comp τ ε σ α} {f : α → Comp τ ε σ β} {s s' s'' : σ} {a : α} {b : β} {e : ε}

theorem Yields.bind (h : Yields c s a s') (h' : Yields (f a) s' b s'') :
    Yields (c >>= f) s b s'' := by
  obtain ⟨hr, rfl⟩ := h
  obtain ⟨hr', rfl⟩ := h'
  rw [Yields, run_bind_of_ok hr]
  exact ⟨hr', rfl⟩

/-- A composed computation yields what its parts do. -/
theorem yields_bind_iff :
    Yields (c >>= f) s b s'' ↔ ∃ a s', Yields c s a s' ∧ Yields (f a) s' b s'' := by
  constructor
  · intro h
    cases hr : (c s).result with
    | ok a =>
      rw [Yields, run_bind_of_ok hr] at h
      exact ⟨a, _, ⟨hr, rfl⟩, h⟩
    | error e =>
      rw [Yields, run_bind_of_error hr] at h
      cases h.1
  · rintro ⟨a, s', h, h'⟩
    exact h.bind h'

theorem Yields.bind_raises (h : Yields c s a s') (h' : Raises (f a) s' e s'') :
    Raises (c >>= f) s e s'' := by
  obtain ⟨hr, rfl⟩ := h
  obtain ⟨hr', rfl⟩ := h'
  rw [Raises, run_bind_of_ok hr]
  exact ⟨hr', rfl⟩

theorem Raises.bind (h : Raises c s e s') : Raises (c >>= f) s e s' := by
  obtain ⟨hr, rfl⟩ := h
  rw [Raises, run_bind_of_error hr]
  exact ⟨rfl, rfl⟩

theorem Yields.not_raises (h : Yields c s a s') (h' : Raises c s e s'') : False := by
  have heq := h.1.symm.trans h'.1
  cases heq

theorem Yields.unique {a' : α} (h : Yields c s a s') (h' : Yields c s a' s'') :
    a = a' ∧ s' = s'' :=
  ⟨ok.inj (h.1.symm.trans h'.1), h.2.symm.trans h'.2⟩

end Yields

/-! ## Relations that runs keep to -/

/-- **A sequential relation** of the state before a run, its trace and the state after: it holds of
an empty run and of two runs in sequence. -/
structure Sequential (R : σ → List τ → σ → Prop) : Prop where
  refl : ∀ s, R s [] s
  trans : ∀ {s s' s'' : σ} {t t' : List τ}, R s t s' → R s' t' s'' → R s (t ++ t') s''

/-- Every run of `c` keeps to the relation `R` of states and traces. -/
def Respects (R : σ → List τ → σ → Prop) (c : Comp τ ε σ α) : Prop :=
  ∀ s, R s (c s).trace (c s).state

section Respects

variable {R : σ → List τ → σ → Prop}

protected theorem Respects.ret (hR : Sequential R) (a : α) :
    Respects R (ret a : Comp τ ε σ α) := hR.refl

protected theorem Respects.raise (hR : Sequential R) (e : ε) :
    Respects R (raise e : Comp τ ε σ α) := hR.refl

protected theorem Respects.state (hR : Sequential R) : Respects R (state : Comp τ ε σ σ) := hR.refl

protected theorem Respects.lift (hR : Sequential R) (f : σ → Except ε α) :
    Respects R (lift f : Comp τ ε σ α) := hR.refl

protected theorem Respects.emit {event : τ} (h : ∀ s, R s [event] s) :
    Respects R (emit event : Comp τ ε σ Unit) := h

protected theorem Respects.modify {change : σ → σ} (h : ∀ s, R s [] (change s)) :
    Respects R (modify change : Comp τ ε σ Unit) := h

variable {c : Comp τ ε σ α} {f : α → Comp τ ε σ β}

theorem bind_at (hR : Sequential R) {s : σ} (hc : R s (c s).trace (c s).state)
    (hf : ∀ a, (c s).result = .ok a → R (c s).state (f a (c s).state).trace (f a
    (c s).state).state) : R s ((c >>= f) s).trace ((c >>= f) s).state := by
  cases hr : (c s).result with
  | error e =>
    rw [run_bind_of_error hr]
    exact hc
  | ok a =>
    rw [run_bind_of_ok hr]
    exact hR.trans hc (hf a hr)

/-- The sequencing rule for a first part that keeps to `R` and a second that keeps to `S`. -/
theorem Respects.bind_of {S T : σ → List τ → σ → Prop} (hc : Respects R c)
    (hf : ∀ a, Respects S (f a)) (hs : ∀ {s t s'}, R s t s' → T s t s')
    (hg : ∀ {s t s' t' s''}, R s t s' → S s' t' s'' → T s (t ++ t') s'') :
    Respects T (c >>= f) := by
  intro s
  have h := hc s
  cases hr : (c s).result with
  | error e =>
    rw [run_bind_of_error hr]
    exact hs h
  | ok a =>
    rw [run_bind_of_ok hr]
    exact hg h (hf a (c s).state)

protected theorem Respects.bind (hR : Sequential R) (hc : Respects R c)
    (hf : ∀ a, Respects R (f a)) :
    Respects R (c >>= f) :=
  Respects.bind_of hc hf id hR.trans

/-- The rule for handlers. -/
protected theorem Respects.tryCatch (hR : Sequential R) {handler : ε → Comp τ ε σ α}
    (hc : Respects R c)
    (hh : ∀ e, Respects R (handler e)) : Respects R (tryCatch c handler) := by
  intro s
  have h := hc s
  cases hres : (c s).result with
  | error e =>
    rw [run_tryCatch_of_error hres]
    exact hR.trans h (hh e (c s).state)
  | ok a =>
    rw [run_tryCatch_of_ok hres]
    exact h

end Respects

/-! ## How a computation ends -/

/-- Every event is in `G`, and every run ends in a value in `B` or an error in `A`. -/
def Ends (G : τ → Prop) (B : α → Prop) (A : ε → Prop) (c : Comp τ ε σ α) : Prop :=
  ∀ s, (∀ x ∈ (c s).trace, G x) ∧ (∀ a, (c s).result = .ok a → B a) ∧
    ∀ e, (c s).result = .error e → A e

section Ends

variable {G : τ → Prop} {B : α → Prop} {C : β → Prop} {A A' : ε → Prop} {c : Comp τ ε σ α}

theorem Ends.mono (h : Ends G B A c) (hA : ∀ e, A e → A' e) : Ends G B A' c :=
  fun s => ⟨(h s).1, (h s).2.1, fun e he => hA e ((h s).2.2 e he)⟩

protected theorem Ends.ret {a : α} (ha : B a) : Ends G B A (ret a : Comp τ ε σ α) := by
  refine fun s => ⟨fun x hx => (by cases hx), fun b hb => ?_, fun e he => (by cases he)⟩
  cases hb
  exact ha

protected theorem Ends.raise {e : ε} (he : A e) : Ends G B A (raise e : Comp τ ε σ α) := by
  refine fun s => ⟨fun x hx => (by cases hx), fun b hb => (by cases hb), fun e' he' => ?_⟩
  cases he'
  exact he

theorem Ends.of_quiet (ht : ∀ s, (c s).trace = []) (hb : ∀ s a, (c s).result = .ok a → B a)
    (he : ∀ s e, (c s).result = .error e → A e) : Ends G B A c := by
  refine fun s => ⟨fun x hx => ?_, hb s, he s⟩
  rw [ht] at hx
  cases hx

/-- The sequencing rule. -/
protected theorem Ends.bind {f : α → Comp τ ε σ β} (hc : Ends G B A c)
    (hf : ∀ a, B a → Ends G C A (f a)) :
    Ends G C A (c >>= f) := by
  intro s
  obtain ⟨htrace, hok, herror⟩ := hc s
  cases hres : (c s).result with
  | error e =>
    rw [run_bind_of_error hres]
    refine ⟨htrace, fun b hb => (by cases hb), fun e' he' => ?_⟩
    cases he'
    exact herror e hres
  | ok a =>
    obtain ⟨htrace', hok', herror'⟩ := hf a (hok a hres) (c s).state
    rw [run_bind_of_ok hres]
    refine ⟨fun x hx => ?_, hok', herror'⟩
    rcases List.mem_append.1 hx with hx | hx
    · exact htrace x hx
    · exact htrace' x hx

/-- The rule for handlers: what leaves is what the handler raises. -/
protected theorem Ends.tryCatch {handler : ε → Comp τ ε σ α} (hc : Ends G B A c)
    (hh : ∀ e, A e → Ends G B A' (handler e)) : Ends G B A' (tryCatch c handler) := by
  intro s
  obtain ⟨htrace, hok, herror⟩ := hc s
  cases hres : (c s).result with
  | error e =>
    obtain ⟨htrace', hok', herror'⟩ := hh e (herror e hres) (c s).state
    rw [run_tryCatch_of_error hres]
    refine ⟨fun x hx => ?_, hok', herror'⟩
    rcases List.mem_append.1 hx with hx | hx
    · exact htrace x hx
    · exact htrace' x hx
  | ok a =>
    rw [run_tryCatch_of_ok hres]
    exact ⟨htrace, fun b hb => hok b (hres.trans hb), fun e he => (by cases he)⟩

protected theorem Ends.finally (hc : Ends G B A c) (change : σ → σ) :
    Ends G B A (finally_ c change) := fun s => hc s

end Ends

/-! ## Events that tell how a computation ends -/

/-- There is an event in `M` iff the run ends in an error in `F`. -/
def Tells (M : τ → Prop) (F : ε → Prop) (c : Comp τ ε σ α) : Prop :=
  ∀ s, (∃ x ∈ (c s).trace, M x) ↔ ∃ e, (c s).result = .error e ∧ F e

section Tells

variable {M : τ → Prop} {F : ε → Prop}

theorem exists_mem_append_of_not {t t' : List τ} (h : ¬ ∃ x ∈ t, M x) :
    (∃ x ∈ t ++ t', M x) ↔ ∃ x ∈ t', M x := by
  simp only [List.mem_append, or_and_right, exists_or, h, false_or]

variable {c : Comp τ ε σ α}

theorem Tells.of_ends {B : α → Prop} (h : Ends (fun x => ¬ M x) B (fun e => ¬ F e) c) :
    Tells M F c := by
  refine fun s => iff_of_false ?_ ?_
  · rintro ⟨x, hx, hM⟩
    exact (h s).1 x hx hM
  · rintro ⟨e, he, hF⟩
    exact (h s).2.2 e he hF

/-- The sequencing rule. -/
protected theorem Tells.bind {f : α → Comp τ ε σ β} (hc : Tells M F c) (hf : ∀ a, Tells M F (f a)) :
    Tells M F (c >>= f) := by
  intro s
  cases hres : (c s).result with
  | error e =>
    rw [run_bind_of_error hres]
    refine (hc s).trans ⟨?_, ?_⟩
    · rintro ⟨e', he', hF⟩
      exact ⟨e', congrArg error (error.inj (hres.symm.trans he')), hF⟩
    · rintro ⟨e', he', hF⟩
      exact ⟨e', hres.trans (congrArg error (error.inj he')), hF⟩
  | ok a =>
    -- no event of the first part tells anything, since the first part has a value
    have hquiet : ¬ ∃ x ∈ (c s).trace, M x := by
      rintro hx
      obtain ⟨e, he, -⟩ := (hc s).1 hx
      rw [hres] at he
      cases he
    rw [run_bind_of_ok hres]
    exact (exists_mem_append_of_not hquiet).trans (hf a (c s).state)

/-- The rule for handlers: a handler passes the exceptions in `F` on. -/
protected theorem Tells.tryCatch {handler : ε → Comp τ ε σ α} (hc : Tells M F c)
    (hh : ∀ e, ¬ F e → Tells M F (handler e))
    (hpass : ∀ e, F e → ∀ s, ∃ e', (handler e s).result = .error e' ∧ F e') :
    Tells M F (tryCatch c handler) := by
  intro s
  cases hres : (c s).result with
  | ok a =>
    rw [run_tryCatch_of_ok hres]
    exact hres ▸ hc s
  | error e =>
    rw [run_tryCatch_of_error hres]
    by_cases hF : F e
    · -- the event of the first part tells the exception that is passed on
      obtain ⟨x, hx, hM⟩ := (hc s).2 ⟨e, hres, hF⟩
      exact iff_of_true ⟨x, List.mem_append_left _ hx, hM⟩ (hpass e hF _)
    · have hquiet : ¬ ∃ x ∈ (c s).trace, M x := by
        intro hx
        obtain ⟨e', he', hF'⟩ := (hc s).1 hx
        cases hres.symm.trans he'
        exact hF hF'
      exact (exists_mem_append_of_not hquiet).trans (hh e hF (c s).state)

protected theorem Tells.finally (hc : Tells M F c) (change : σ → σ) :
    Tells M F (finally_ c change) := fun s => hc s

end Tells

end Comp
