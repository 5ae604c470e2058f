import Mathlib

/-!
# Substitution of patterns

A pattern reads a match at the front of a text. A pass goes through a text from left to right, and
puts a new text for every match; what it has written is not read again by the same pass, but by the
passes after it.
-/

/-- A pattern reads a match at the front of a text. -/
structure Pattern (σ α : Type) where
  read : List σ → Option (α × List σ)
  consumes : ∀ {t a rest}, read t = some (a, rest) → ∃ m, m ≠ [] ∧ t = m ++ rest

namespace Pattern

variable {σ α : Type} (P : Pattern σ α)

/-- The pattern matches somewhere in `t`. -/
def Occurs (t : List σ) : Prop := ∃ s, s <:+ t ∧ P.read s ≠ none

/-- No match goes across a border. -/
def Apart (a b : List σ) : Prop :=
  ∀ s, s ≠ [] → s <:+ a → P.read (s ++ b) = (P.read s).map fun m => (m.1, m.2 ++ b)

/-- No match goes over the symbol `c`. -/
def Stops (c : σ) : Prop :=
  ∀ a b, P.read (a ++ c :: b) = (P.read a).map fun m => (m.1, m.2 ++ c :: b)

variable {P}

theorem read_nil : P.read [] = none := by
  cases h : P.read [] with
  | none => rfl
  | some m =>
    obtain ⟨m, hn, heq⟩ := P.consumes h
    exact absurd (List.append_eq_nil_iff.1 heq.symm).1 hn

variable {c : σ}

theorem Stops.read_cons (h : P.Stops c) (b : List σ) : P.read (c :: b) = none := by
  have hr := h [] b
  rwa [List.nil_append, read_nil] at hr

theorem Stops.apart (h : P.Stops c) (a b : List σ) : P.Apart a (c :: b) :=
  fun s _ _ => h s b

theorem Apart.of_suffix {a a' b : List σ} (h : P.Apart a b) (hsu : a' <:+ a) : P.Apart a' b :=
  fun s hn hs => h s hn (hs.trans hsu)

theorem not_occurs_nil : ¬ P.Occurs [] := by
  rintro ⟨s, hs, hr⟩
  rw [List.suffix_nil.1 hs, read_nil] at hr
  exact hr rfl

theorem Occurs.of_suffix {t t' : List σ} (h : P.Occurs t') (hsu : t' <:+ t) : P.Occurs t := by
  obtain ⟨s, hs, hr⟩ := h
  exact ⟨s, hs.trans hsu, hr⟩

theorem occurs_cons_iff {t : List σ} : P.Occurs (c :: t) ↔ P.read (c :: t) ≠ none ∨ P.Occurs t := by
  constructor
  · rintro ⟨s, hs, hr⟩
    rcases List.suffix_cons_iff.1 hs with rfl | hs
    · exact .inl hr
    · exact .inr ⟨s, hs, hr⟩
  · rintro (h | h)
    · exact ⟨c :: t, List.suffix_rfl, h⟩
    · exact h.of_suffix (List.suffix_cons c t)

end Pattern

/-- A pattern with the text for a match. -/
structure Pass (σ α : Type) extends Pattern σ α where
  render : α → List σ

namespace Pass

variable {σ α : Type} (p : Pass σ α)

def substituteFor : Nat → List σ → List σ
  | 0, t => t
  | _ + 1, [] => []
  | n + 1, c :: t =>
    match p.read (c :: t) with
    | some (a, rest) => p.render a ++ substituteFor n rest
    | none => c :: substituteFor n t

/-- The pass: every match is replaced, from left to right. -/
def substitute (t : List σ) : List σ := p.substituteFor t.length t

variable {p} {t rest : List σ}

theorem length_lt_of_read {a : α} (h : p.read t = some (a, rest)) : rest.length < t.length := by
  obtain ⟨m, hn, rfl⟩ := p.consumes h
  have := List.length_pos_of_ne_nil hn
  rw [List.length_append]
  omega

theorem substituteFor_eq : ∀ {n m : Nat} {t : List σ}, t.length ≤ n → t.length ≤ m →
    p.substituteFor n t = p.substituteFor m t
  | 0, 0, _, _, _ => rfl
  | 0, m + 1, [], _, _ => rfl
  | n + 1, 0, [], _, _ => rfl
  | n + 1, m + 1, [], _, _ => rfl
  | n + 1, m + 1, c :: t, hn, hm => by
    rw [substituteFor, substituteFor]
    rw [List.length_cons] at hn hm
    cases hr : p.read (c :: t) with
    | none => exact congrArg (c :: ·) (substituteFor_eq (by omega) (by omega))
    | some m' =>
      obtain ⟨a, r⟩ := m'
      have hl := length_lt_of_read hr
      rw [List.length_cons] at hl
      exact congrArg (p.render a ++ ·) (substituteFor_eq (by omega) (by omega))

@[simp] theorem substitute_nil : p.substitute [] = [] := rfl

theorem substitute_of_none {c : σ} (h : p.read (c :: t) = none) :
    p.substitute (c :: t) = c :: p.substitute t := by
  rw [substitute, List.length_cons, substituteFor, h]
  rfl

theorem substitute_of_some {a : α} (h : p.read t = some (a, rest)) :
    p.substitute t = p.render a ++ p.substitute rest := by
  have hl := length_lt_of_read h
  cases t with
  | nil => exact absurd hl (Nat.not_lt_zero _)
  | cons c t =>
    rw [substitute, List.length_cons, substituteFor, h]
    rw [List.length_cons] at hl
    exact congrArg (p.render a ++ ·) (substituteFor_eq (by omega) le_rfl)

@[elab_as_elim]
theorem inductionOn {motive : List σ → Prop} (t : List σ) (nil : motive [])
    (keep : ∀ c t, p.read (c :: t) = none → motive t → motive (c :: t))
    (put : ∀ t a rest, p.read t = some (a, rest) → motive rest → motive t) : motive t := by
  induction hl : t.length using Nat.strongRecOn generalizing t with
  | ind n ih =>
  subst hl
  cases t with
  | nil => exact nil
  | cons c t =>
    cases hr : p.read (c :: t) with
    | none => exact keep c t hr (ih t.length (by simp) t rfl)
    | some m => exact put _ m.1 m.2 hr (ih _ (length_lt_of_read hr) m.2 rfl)

theorem substitute_of_not_occurs (t : List σ) (h : ¬ p.Occurs t) : p.substitute t = t := by
  induction t with
  | nil => rfl
  | cons c t ih =>
    rw [Pattern.occurs_cons_iff, not_or, not_not] at h
    rw [substitute_of_none h.1, ih h.2]

/-- A border that no match goes across. -/
theorem substitute_append {a b : List σ} (h : p.Apart a b) :
    p.substitute (a ++ b) = p.substitute a ++ p.substitute b := by
  induction a using inductionOn (p := p) with
  | nil => rfl
  | keep c t hr ih =>
    have ha := h (c :: t) (List.cons_ne_nil c t) List.suffix_rfl
    rw [hr, Option.map_none, List.cons_append] at ha
    rw [List.cons_append, substitute_of_none ha, substitute_of_none hr,
      ih (h.of_suffix (List.suffix_cons c t)), List.cons_append]
  | put t a r hr ih =>
    obtain ⟨m, hn, rfl⟩ := p.consumes hr
    have ha := h (m ++ r) (by simp [hn]) List.suffix_rfl
    rw [hr, Option.map_some] at ha
    rw [substitute_of_some ha, substitute_of_some hr,
      ih (h.of_suffix (List.suffix_append m r)), List.append_assoc]

theorem substitute_append_stop {c : σ} (h : p.Stops c) (a b : List σ) :
    p.substitute (a ++ c :: b) = p.substitute a ++ c :: p.substitute b := by
  rw [substitute_append (h.apart a b), substitute_of_none (h.read_cons b)]

section Find

variable {q : σ → Bool} {d : σ}

/-- What the first symbol of a kind becomes. -/
theorem find?_substitute (hrender : ∀ a, (p.render a).find? q = some d) (t : List σ) :
    (p.substitute t).find? q = t.find? q ∨ (p.substitute t).find? q = some d := by
  induction t using inductionOn (p := p) with
  | nil => exact .inl rfl
  | keep c t hr ih =>
    rw [substitute_of_none hr, List.find?_cons, List.find?_cons]
    split
    · exact .inl rfl
    · exact ih
  | put t a r hr _ =>
    rw [substitute_of_some hr, List.find?_append, hrender]
    exact .inr rfl

theorem find?_reverse_substitute (hrender : ∀ a, (p.render a).reverse.find? q = some d)
    (t : List σ) : (p.substitute t).reverse.find? q = t.reverse.find? q ∨
      (p.substitute t).reverse.find? q = some d := by
  induction t using inductionOn (p := p) with
  | nil => exact .inl rfl
  | keep c t hr ih =>
    rw [substitute_of_none hr, List.reverse_cons, List.reverse_cons, List.find?_append,
      List.find?_append]
    rcases ih with ih | ih
    · exact .inl (by rw [ih])
    · exact .inr (by rw [ih, Option.some_or])
  | put t a r hr ih =>
    obtain ⟨m, -, rfl⟩ := p.consumes hr
    rw [substitute_of_some hr, List.reverse_append, List.reverse_append, List.find?_append,
      List.find?_append, hrender]
    rcases ih with ih | ih
    · rw [ih]
      cases r.reverse.find? q with
      | none => exact .inr rfl
      | some e => exact .inl rfl
    · exact .inr (by rw [ih, Option.some_or])

end Find

end Pass

/-! ## Passes in a row -/

section Passes

variable {σ α : Type}

/-- Passes in a row. -/
def runPasses (passes : List (Pass σ α)) (t : List σ) : List σ :=
  passes.foldl (fun t p => p.substitute t) t

theorem runPasses_cons (p : Pass σ α) (passes : List (Pass σ α)) (t : List σ) :
    runPasses (p :: passes) t = runPasses passes (p.substitute t) := rfl

theorem runPasses_append (before after : List (Pass σ α)) (t : List σ) :
    runPasses (before ++ after) t = runPasses after (runPasses before t) :=
  List.foldl_append

theorem runPasses_append_stop {c : σ} : ∀ {passes : List (Pass σ α)},
    (∀ p ∈ passes, p.Stops c) → ∀ a b,
    runPasses passes (a ++ c :: b) = runPasses passes a ++ c :: runPasses passes b
  | [], _, _, _ => rfl
  | p :: passes, h, a, b => by
    rw [runPasses_cons, Pass.substitute_append_stop (h p List.mem_cons_self),
      runPasses_append_stop fun p' hp' => h p' (List.mem_cons_of_mem p hp')]
    rfl

theorem runPasses_of_not_occurs : ∀ {passes : List (Pass σ α)} {t : List σ},
    (∀ p ∈ passes, ¬ p.Occurs t) → runPasses passes t = t
  | [], _, _ => rfl
  | p :: passes, t, h => by
    rw [runPasses_cons, Pass.substitute_of_not_occurs t (h p List.mem_cons_self)]
    exact runPasses_of_not_occurs fun p' hp' => h p' (List.mem_cons_of_mem p hp')

/-- `t'` is `t` up to a place where `t'` has a `c` and `t` has not. -/
def Diverges (c : σ) (t t' : List σ) : Prop :=
  ∃ p x s s', t = p ++ x :: s ∧ t' = p ++ c :: s' ∧ x ≠ c

variable {t t' : List σ}

theorem Diverges.cons {c : σ} (d : σ) (h : Diverges c t t') : Diverges c (d :: t) (d :: t') := by
  obtain ⟨p, x, s, s', rfl, rfl, hn⟩ := h
  exact ⟨d :: p, x, s, s', rfl, rfl, hn⟩

variable {c : σ} {p : Pass σ α} (hstops : p.Stops c) (hrender : ∀ a, ∃ r, p.render a = c :: r)

include hstops hrender

theorem Pass.diverges_substitute (h : p.Occurs t) : Diverges c t (p.substitute t) := by
  induction t with
  | nil => exact absurd h Pattern.not_occurs_nil
  | cons d t ih =>
    cases hre : p.read (d :: t) with
    | none =>
      rw [Pass.substitute_of_none hre]
      have hl := (Pattern.occurs_cons_iff.1 h).resolve_left (not_not.2 hre)
      exact (ih hl).cons d
    | some m =>
      obtain ⟨r, hr⟩ := hrender m.1
      refine ⟨[], d, t, r ++ p.substitute m.2, rfl, ?_, ?_⟩
      · rw [Pass.substitute_of_some hre, hr]
        rfl
      · rintro rfl
        rw [hstops.read_cons] at hre
        cases hre

theorem Diverges.substitute (h : Diverges c t t') : Diverges c t (p.substitute t') := by
  obtain ⟨u, x, s, s', rfl, rfl, hne⟩ := h
  rw [Pass.substitute_append_stop hstops]
  by_cases ho : p.Occurs u
  · obtain ⟨v, y, w, w', hu, hs, hn⟩ := Pass.diverges_substitute hstops hrender ho
    refine ⟨v, y, w ++ x :: s, w' ++ c :: p.substitute s', ?_, ?_, hn⟩
    · rw [hu, List.append_assoc, List.cons_append]
    · rw [hs, List.append_assoc, List.cons_append]
  · rw [Pass.substitute_of_not_occurs u ho]
    exact ⟨u, x, s, p.substitute s', rfl, rfl, hne⟩

end Passes

section Passes

variable {σ α : Type} {c : σ}

theorem Diverges.runPasses : ∀ {passes : List (Pass σ α)}, (∀ p ∈ passes, p.Stops c) →
    (∀ p ∈ passes, ∀ a, ∃ r, p.render a = c :: r) → ∀ {t t'}, Diverges c t t' →
    Diverges c t (runPasses passes t')
  | [], _, _, _, _, h => h
  | p :: _, hstops, hrender, _, _, h =>
    Diverges.runPasses (fun p' hp' => hstops p' (List.mem_cons_of_mem p hp'))
      (fun p' hp' => hrender p' (List.mem_cons_of_mem p hp'))
      (h.substitute (hstops p List.mem_cons_self) (hrender p List.mem_cons_self))

/-- Passes leave a text as it is, or show in it. -/
theorem runPasses_eq_or_diverges : ∀ {passes : List (Pass σ α)}, (∀ p ∈ passes, p.Stops c) →
    (∀ p ∈ passes, ∀ a, ∃ r, p.render a = c :: r) → ∀ t,
    ((∀ p ∈ passes, ¬ p.Occurs t) ∧ runPasses passes t = t) ∨
      ((∃ p ∈ passes, p.Occurs t) ∧ Diverges c t (runPasses passes t))
  | [], _, _, _ => .inl ⟨nofun, rfl⟩
  | p :: passes, hstops, hrender, t => by
    have hs' : ∀ p' ∈ passes, p'.Stops c := fun p' hp' => hstops p' (List.mem_cons_of_mem p hp')
    have hr' : ∀ p' ∈ passes, ∀ a, ∃ r, p'.render a = c :: r :=
      fun p' hp' => hrender p' (List.mem_cons_of_mem p hp')
    rw [runPasses_cons]
    by_cases ho : p.Occurs t
    · refine .inr ⟨⟨p, List.mem_cons_self, ho⟩, ?_⟩
      apply Diverges.runPasses hs' hr'
      exact Pass.diverges_substitute (hstops p List.mem_cons_self) (hrender p List.mem_cons_self) ho
    · rw [Pass.substitute_of_not_occurs t ho]
      rcases runPasses_eq_or_diverges hs' hr' t with ⟨hn, heq⟩ | ⟨⟨p', hp', h⟩, hd⟩
      · exact .inl ⟨List.forall_mem_cons.2 ⟨ho, hn⟩, heq⟩
      · exact .inr ⟨⟨p', List.mem_cons_of_mem p hp', h⟩, hd⟩

end Passes
