import Mathlib

/-!
# Operators with precedence

A printer that writes operators between their operands, and no parentheses of its own, is read back
by a reader that knows how tightly each binds. Binary operators group to the left, and unary ones
bind more tightly. The trees that survive are those in which every operand binds tightly enough for
its place.
-/

/-- Expressions with atoms `α`, forms `φ` and operators `ο`. -/
inductive OpTree (α φ ο : Type) where
  | leaf (a : α)
  | unary (o : ο) (e : OpTree α φ ο)
  | binary (o : ο) (l r : OpTree α φ ο)
  | form (f : φ) (args : List (OpTree α φ ο))

namespace OpTree

open List Option

variable {α φ ο : Type}

inductive Token (α φ ο : Type) where
  | atom (a : α)
  | symbol (o : ο)
  | opening (f : φ)
  | comma
  | closing

@[elab_as_elim]
theorem inductionOn {motive : OpTree α φ ο → Prop} (e : OpTree α φ ο)
    (leaf : ∀ a, motive (.leaf a)) (unary : ∀ o e, motive e → motive (.unary o e))
    (binary : ∀ o l r, motive l → motive r → motive (.binary o l r))
    (form : ∀ f args, (∀ e ∈ args, motive e) → motive (.form f args)) : motive e :=
  match e with
  | .leaf a => leaf a
  | .unary o e => unary o e (inductionOn e leaf unary binary form)
  | .binary o l r =>
    binary o l r (inductionOn l leaf unary binary form) (inductionOn r leaf unary binary form)
  | .form f args => form f args fun e _ => inductionOn e leaf unary binary form

/-! ## Printing -/

mutual

/-- The tokens of an expression. A binary operator stands between its operands. -/
def print : OpTree α φ ο → List (Token α φ ο)
  | .leaf a => [.atom a]
  | .unary o e => .symbol o :: e.print
  | .binary o l r => l.print ++ .symbol o :: r.print
  | .form f args => .opening f :: printArgs args

def printArgs : List (OpTree α φ ο) → List (Token α φ ο)
  | [] => [.closing]
  | [e] => e.print ++ [.closing]
  | e :: e' :: rest => e.print ++ .comma :: printArgs (e' :: rest)

end

/-! ## Reading -/

variable {args : List (OpTree α φ ο)}

section Reading

variable (prec : ο → Nat)

mutual

/-- Read an operand: an atom, a unary operator with its operand, or a form. The number bounds the
depth of the recursion. -/
def readOperand : Nat → List (Token α φ ο) → Option (OpTree α φ ο × List (Token α φ ο))
  | _ + 1, .atom a :: rest => some (.leaf a, rest)
  | n + 1, .symbol o :: rest => do
    let (e, rest) ← readOperand n rest
    return (.unary o e, rest)
  | _ + 1, .opening f :: .closing :: rest => some (.form f [], rest)
  | n + 1, .opening f :: rest => do
    let (args, rest) ← readArgs n rest
    return (.form f args, rest)
  | _, _ => none

/-- Read an expression whose binary operators bind at least as tightly as `least`. -/
def readExpr : Nat → (least : Nat) → List (Token α φ ο) →
    Option (OpTree α φ ο × List (Token α φ ο))
  | n + 1, least, toks => do
    let (e, rest) ← readOperand n toks
    readRest n least e rest
  | 0, _, _ => none

/-- Go on after the left operand, as long as operators follow that bind tightly enough. -/
def readRest : Nat → (least : Nat) → OpTree α φ ο → List (Token α φ ο) →
    Option (OpTree α φ ο × List (Token α φ ο))
  | n + 1, least, l, .symbol o :: rest =>
    if least ≤ prec o then do
      let (r, rest) ← readExpr n (prec o + 1) rest
      readRest n least (.binary o l r) rest
    else some (l, .symbol o :: rest)
  | _ + 1, _, l, rest => some (l, rest)
  | 0, _, _, _ => none

def readArgs : Nat → List (Token α φ ο) → Option (List (OpTree α φ ο) × List (Token α φ ο))
  | n + 1, toks => do
    match ← readExpr n 0 toks with
    | (e, .closing :: rest) => some ([e], rest)
    | (e, .comma :: rest) =>
      let (args, rest) ← readArgs n rest
      return (e :: args, rest)
    | _ => none
  | 0, _ => none

end

/-- The expression of a list of tokens, for the precedences `prec`. -/
def read (toks : List (Token α φ ο)) : Option (OpTree α φ ο) :=
  match readExpr prec (3 * toks.length + 1) 0 toks with
  | some (e, []) => some e
  | _ => none

/-! ## Well-formed expressions -/

def isBinary : OpTree α φ ο → Bool
  | .binary _ _ _ => true
  | _ => false

variable (least : Nat)

def Fits : OpTree α φ ο → Prop
  | .binary o _ _ => least ≤ prec o
  | _ => True

mutual

/-- Every operand binds tightly enough for its place. -/
def WellFormed : OpTree α φ ο → Prop
  | .leaf _ => True
  | .unary _ e => e.isBinary = false ∧ e.WellFormed
  | .binary o l r => l.Fits prec (prec o) ∧ r.Fits prec (prec o + 1) ∧ l.WellFormed ∧ r.WellFormed
  | .form _ args => AllWellFormed args

def AllWellFormed : List (OpTree α φ ο) → Prop
  | [] => True
  | e :: rest => e.WellFormed ∧ AllWellFormed rest

end

/-- No operator follows that binds at least as tightly as `least`. -/
def Stops (toks : List (Token α φ ο)) : Prop :=
  ∀ o rest, toks = .symbol o :: rest → prec o < least

/-- What follows an expression leaves its last operand alone. -/
def Follows (e : OpTree α φ ο) (toks : List (Token α φ ο)) : Prop :=
  ∀ o l r, e = .binary o l r → Stops prec (prec o + 1) toks

variable {prec}

@[simp]
theorem fits_leaf (a : α) : Fits prec least (.leaf a : OpTree α φ ο) := trivial

@[simp]
theorem fits_binary (o : ο) (l r : OpTree α φ ο) :
    Fits prec least (.binary o l r) ↔ least ≤ prec o := Iff.rfl

@[simp]
theorem fits_form (f : φ) (args : List (OpTree α φ ο)) : Fits prec least (.form f args) := trivial

variable {e : OpTree α φ ο}

theorem wellFormed_of_mem (h : AllWellFormed prec args) (he : e ∈ args) : e.WellFormed prec := by
  induction args with
  | nil => cases he
  | cons e' r ih =>
    rcases mem_cons.1 he with rfl | he
    · exact h.1
    · exact ih h.2 he

/-! ## What is read is well formed -/

variable (α φ prec) in
/-- The results of the readers with a bound of `n`. -/
structure Sound (n : Nat) : Prop where
  operand : ∀ {toks rest : List (Token α φ ο)} {e}, readOperand prec n toks = some (e, rest) →
    e.WellFormed prec ∧ e.isBinary = false
  expr : ∀ {least} {toks rest : List (Token α φ ο)} {e},
    readExpr prec n least toks = some (e, rest) →
    e.WellFormed prec ∧ e.Fits prec least ∧ Stops prec least rest
  rest : ∀ {least l} {toks rest : List (Token α φ ο)} {e},
    readRest prec n least l toks = some (e, rest) → l.WellFormed prec → l.Fits prec least →
    Follows prec l toks → e.WellFormed prec ∧ e.Fits prec least ∧ Stops prec least rest
  args : ∀ {toks rest : List (Token α φ ο)} {es}, readArgs prec n toks = some (es, rest) →
    AllWellFormed prec es

theorem fits_of_isBinary (h : e.isBinary = false) (least : Nat) : e.Fits prec least := by
  cases e with
  | binary => cases h
  | _ => trivial

theorem follows_of_isBinary (h : e.isBinary = false) (toks : List (Token α φ ο)) :
    Follows prec e toks := by
  rintro o l r rfl
  cases h

variable {rest : List (Token α φ ο)}

theorem Follows.fits {l : OpTree α φ ο} {o : ο} (h : Follows prec l (.symbol o :: rest)) :
    l.Fits prec (prec o) := by
  cases l with
  | binary o' l' r' => exact Nat.le_of_lt_succ (h o' l' r' rfl o rest rfl)
  | _ => trivial

theorem Sound.succ {n : Nat} (ih : Sound α φ prec n) : Sound α φ prec (n + 1) where
  operand {toks rest e} h := by
    rw [readOperand.eq_def] at h
    split at h
    · cases h
      exact ⟨trivial, rfl⟩
    · rename_i heq
      cases heq
      obtain ⟨⟨e', rest'⟩, hr, h⟩ := bind_eq_some_iff.1 h
      cases h
      obtain ⟨hwf, hb⟩ := ih.operand hr
      exact ⟨⟨hb, hwf⟩, rfl⟩
    · cases h
      exact ⟨trivial, rfl⟩
    · rename_i heq
      cases heq
      obtain ⟨⟨args, rest'⟩, hr, h⟩ := bind_eq_some_iff.1 h
      cases h
      exact ⟨ih.args hr, rfl⟩
    · cases h
  expr {least toks rest e} h := by
    obtain ⟨⟨e', rest'⟩, hr, h⟩ := bind_eq_some_iff.1 h
    obtain ⟨hwf, hb⟩ := ih.operand hr
    exact ih.rest h hwf (fits_of_isBinary hb _) (follows_of_isBinary hb _)
  rest {least l toks rest e} h hwf hf hfo := by
    rw [readRest.eq_def] at h
    split at h
    · rename_i heq
      cases heq
      split at h
      · rename_i hl
        obtain ⟨⟨r, rest'⟩, hr, h⟩ := bind_eq_some_iff.1 h
        obtain ⟨hw, hfr, hs⟩ := ih.expr hr
        refine ih.rest h ⟨hfo.fits, hfr, hwf, hw⟩ hl ?_
        rintro o' l' r' heq
        cases heq
        exact hs
      · rename_i hlt
        cases h
        refine ⟨hwf, hf, ?_⟩
        rintro o' rest' heq
        cases heq
        exact Nat.lt_of_not_le hlt
    · rename_i heq hn
      cases heq
      cases h
      refine ⟨hwf, hf, ?_⟩
      rintro o' rest' rfl
      exact (hn o' rest' rfl).elim
    · rename_i heq
      cases heq
  args {toks rest es} h := by
    rw [readArgs.eq_def] at h
    obtain ⟨⟨e, rest'⟩, hr, h⟩ := bind_eq_some_iff.1 h
    obtain ⟨hwf, -, -⟩ := ih.expr hr
    simp only at h
    split at h
    · rename_i heq
      cases heq
      cases h
      exact ⟨hwf, trivial⟩
    · rename_i heq
      cases heq
      obtain ⟨⟨args, rest''⟩, ha, h⟩ := bind_eq_some_iff.1 h
      cases h
      exact ⟨hwf, ih.args ha⟩
    · cases h

theorem sound (n : Nat) : Sound α φ prec n := by
  induction n with
  | zero =>
    refine ⟨fun h => ?_, fun h => ?_, fun h => ?_, fun h => ?_⟩
    · simp [readOperand] at h
    · simp [readExpr] at h
    · simp [readRest] at h
    · simp [readArgs] at h
  | succ n ih => exact ih.succ

/-- What is read is well formed. -/
theorem wellFormed_of_read {toks : List (Token α φ ο)} (h : read prec toks = some e) :
    e.WellFormed prec := by
  rw [read] at h
  split at h
  · rename_i hr
    cases h
    exact ((sound _).expr hr).1
  · cases h

/-! ## What is well formed is read back -/

/-- **An expression is read back**, in front of any tokens: as an operand, if it is no binary one,
and as the left operand of what follows. -/
structure ReadsBack (prec : ο → Nat) (e : OpTree α φ ο) : Prop where
  operand : e.isBinary = false → ∀ rest m, 3 * e.print.length ≤ m →
    readOperand prec m (e.print ++ rest) = some (e, rest)
  expr : ∀ {least rest n x}, e.Fits prec least → Follows prec e rest → 1 ≤ n →
    (∀ k, n ≤ k → readRest prec k least e rest = some x) →
    ∀ m, n + 3 * e.print.length ≤ m → readExpr prec m least (e.print ++ rest) = some x

theorem readRest_of_stops {least n : Nat} (h : Stops prec least rest) (hn : 1 ≤ n) :
    readRest prec n least e rest = some (e, rest) := by
  obtain ⟨n, rfl⟩ := Nat.exists_eq_add_of_le' hn
  cases rest with
  | nil => rfl
  | cons t rest =>
    cases t with
    | symbol o => rw [readRest, if_neg (Nat.not_le_of_lt (h o rest rfl))]
    | _ => rfl

theorem ReadsBack.of_operand (hp : 1 ≤ e.print.length)
    (h : ∀ rest m, 3 * e.print.length ≤ m → readOperand prec m (e.print ++ rest) = some (e, rest)) :
    ReadsBack prec e where
  operand _ := h
  expr {least rest n x} _ _ hn hr m hm := by
    obtain ⟨m, rfl⟩ : ∃ k, m = k + 1 := ⟨m - 1, by omega⟩
    rw [readExpr, h rest m (by omega)]
    exact hr m (by omega)

theorem fits_zero (e : OpTree α φ ο) : e.Fits prec 0 := by
  cases e with
  | binary => exact Nat.zero_le _
  | _ => trivial

theorem ReadsBack.whole (h : ReadsBack prec e) (he : ∀ o rest', rest ≠ .symbol o :: rest')
    {m : Nat} (hm : 1 + 3 * e.print.length ≤ m) :
    readExpr prec m 0 (e.print ++ rest) = some (e, rest) := by
  have hs : ∀ least, Stops prec least rest := fun _ o rest' heq => absurd heq (he o rest')
  exact h.expr (fits_zero e) (fun _ _ _ _ => hs _) (Nat.le_refl 1)
    (fun k hk => readRest_of_stops (hs 0) hk) m hm

theorem readArgs_printArgs : ∀ (e : OpTree α φ ο) (args : List (OpTree α φ ο)),
    (∀ e' ∈ e :: args, ReadsBack prec e') → ∀ rest m, 3 * (printArgs (e :: args)).length ≤ m →
    readArgs prec m (printArgs (e :: args) ++ rest) = some (e :: args, rest)
  | e, [], ha, rest, m, hm => by
    simp only [printArgs, List.length_append, List.length_singleton] at hm
    obtain ⟨m, rfl⟩ : ∃ k, m = k + 1 := ⟨m - 1, by omega⟩
    have he : readExpr prec m 0 (e.print ++ .closing :: rest) = some (e, .closing :: rest) :=
      (ha e mem_cons_self).whole (fun _ _ h => by cases h) (by omega)
    simp only [printArgs, append_assoc, singleton_append, readArgs, he]
    rfl
  | e, e' :: args, ha, rest, m, hm => by
    simp only [printArgs, length_append, length_cons] at hm
    obtain ⟨m, rfl⟩ : ∃ k, m = k + 1 := ⟨m - 1, by omega⟩
    have he : readExpr prec m 0 (e.print ++ .comma :: (printArgs (e' :: args) ++ rest)) =
        some (e, .comma :: (printArgs (e' :: args) ++ rest)) :=
      (ha e mem_cons_self).whole (fun _ _ h => by cases h) (by omega)
    have hr := readArgs_printArgs e' args (fun x hx => ha x (mem_cons_of_mem e hx)) rest m
      (by omega)
    simp only [printArgs, append_assoc, cons_append, readArgs, he]
    show (readArgs prec m (printArgs (e' :: args) ++ rest)).bind _ = _
    rw [hr]
    rfl

theorem print_length_pos (e : OpTree α φ ο) : 1 ≤ e.print.length := by
  cases e with
  | binary =>
    simp only [print, length_append, length_cons]
    omega
  | _ => simp [print]

theorem printArgs_ne_closing (e : OpTree α φ ο) (args : List (OpTree α φ ο))
    (rest rest' : List (Token α φ ο)) : printArgs (e :: args) ++ rest ≠ .closing :: rest' := by
  have hh : ∀ e : OpTree α φ ο, ∃ tok toks, e.print = tok :: toks ∧ tok ≠ .closing := by
    intro e
    induction e using inductionOn with
    | binary o l r ihl ihr =>
      obtain ⟨tok, toks, heq, hn⟩ := ihl
      exact ⟨tok, _, by rw [print, heq, cons_append], hn⟩
    | leaf | unary | form => exact ⟨_, _, rfl, nofun⟩
  obtain ⟨tok, toks, heq, hn⟩ := hh e
  cases args with
  | nil | cons =>
    rw [printArgs, heq]
    exact fun h => hn (head_eq_of_cons_eq h)

theorem readsBack_leaf (a : α) : ReadsBack prec (.leaf a : OpTree α φ ο) := by
  refine .of_operand (Nat.le_refl 1) fun r m hm => ?_
  obtain ⟨m, rfl⟩ : ∃ k, m = k + 1 := ⟨m - 1, by simp only [print, length_singleton] at hm; omega⟩
  rfl

theorem readsBack_unary (o : ο) (hb : e.isBinary = false) (he : ReadsBack prec e) :
    ReadsBack prec (.unary o e) := by
  refine .of_operand (print_length_pos _) fun r m hm => ?_
  simp only [print, length_cons] at hm
  obtain ⟨m, rfl⟩ : ∃ k, m = k + 1 := ⟨m - 1, by omega⟩
  rw [print, cons_append, readOperand, he.operand hb r m (by omega)]
  rfl

theorem readsBack_form (f : φ) (ha : ∀ e ∈ args, ReadsBack prec e) :
    ReadsBack prec (.form f args) := by
  refine .of_operand (print_length_pos _) fun r m hm => ?_
  simp only [print, length_cons] at hm
  obtain ⟨m, rfl⟩ : ∃ k, m = k + 1 := ⟨m - 1, by omega⟩
  cases args with
  | nil => rfl
  | cons e args =>
    rw [print, cons_append, readOperand, readArgs_printArgs e args ha r m (by omega)]
    · rfl
    · exact fun r' => printArgs_ne_closing e args r r'

theorem readsBack_binary {o : ο} {l r : OpTree α φ ο} (hl : l.Fits prec (prec o))
    (hr : r.Fits prec (prec o + 1)) (ihl : ReadsBack prec l) (ihr : ReadsBack prec r) :
    ReadsBack prec (.binary o l r) where
  operand h := by cases h
  expr {least rest n x} hf hfo hn hre m hm := by
    have hs : Stops prec (prec o + 1) rest := hfo o l r rfl
    simp only [print, length_append, length_cons] at hm
    rw [print, append_assoc, cons_append]
    refine ihl.expr (n := n + 3 * (1 + r.print.length)) ?_ ?_ (by omega)
      (fun k hk => ?_) m (by omega)
    · -- the left operand fits, since it binds as tightly as the operator
      cases l with
      | binary => exact Nat.le_trans hf hl
      | _ => trivial
    · rintro o' l' r' rfl o'' re' heq
      cases heq
      exact Nat.lt_succ_of_le hl
    obtain ⟨k, rfl⟩ : ∃ k', k = k' + 1 := ⟨k - 1, by omega⟩
    have hri : readExpr prec k (prec o + 1) (r.print ++ rest) = some (r, rest) := by
      refine ihr.expr hr ?_ (Nat.le_refl 1) (fun k' hk' => readRest_of_stops hs hk') k (by omega)
      rintro o' l' r' rfl o'' re' heq
      exact Nat.lt_trans (hs o'' re' heq) (Nat.lt_succ_of_le hr)
    rw [readRest, if_pos (show least ≤ prec o from hf), hri]
    exact hre k (by omega)

theorem readsBack_of_wellFormed (e : OpTree α φ ο) (h : e.WellFormed prec) : ReadsBack prec e := by
  induction e using inductionOn with
  | leaf a => exact readsBack_leaf a
  | unary o e ih => exact readsBack_unary o h.1 (ih h.2)
  | binary o l r i ihr => exact readsBack_binary h.1 h.2.1 (i h.2.2.1) (ihr h.2.2.2)
  | form f args ih => exact readsBack_form f fun e he => ih e he (wellFormed_of_mem h he)

/-- An expression is read back iff it is well formed. -/
theorem read_print_iff (e : OpTree α φ ο) : read prec e.print = some e ↔ e.WellFormed prec := by
  refine ⟨wellFormed_of_read, fun h => ?_⟩
  have hr : readExpr prec (3 * e.print.length + 1) 0 (e.print ++ []) = some (e, []) :=
    (readsBack_of_wellFormed e h).whole (fun _ _ h => by cases h) (by omega)
  rw [append_nil] at hr
  rw [read, hr]

end Reading

end OpTree
