import Bqemulator.Lib.Precedence

/-!
# Arithmetic through the rules of the translator

The translator replaces calls that DuckDB does not know by operators. The printer adds no
parentheses, so an argument of a replaced call stays one operand only if it binds tightly enough.
-/

namespace Bqemulator

open OpTree

open OpTree (Fits WellFormed AllWellFormed)

/-! ## Expressions -/

inductive Atom where
  | column (name : String)
  | number (text : String)
deriving DecidableEq

inductive BqOp where
  | add | sub | mul | div
deriving DecidableEq

inductive DuckOp where
  | add | sub | mul | div | intDiv
deriving DecidableEq

inductive BqFunction where
  | safeAdd | safeSubtract | safeMultiply | safeNegate | ieeeDivide | extractWeek
deriving DecidableEq

inductive BqForm where
  | paren
  | call (f : BqFunction)
deriving DecidableEq

/-- Parentheses, calls that are still to be replaced, `CASE WHEN x = 0 THEN error(…) ELSE y END`,
`TRY(x)`, `CAST(x AS type)`, `EXTRACT(part FROM x)` and `DATE_TRUNC('year', x)`. -/
inductive DuckForm where
  | paren
  | call (f : BqFunction)
  | divisionCase
  | try_
  | cast (typeName : String)
  | extract (part : String)
  | dateTruncYear
deriving DecidableEq

def DuckOp.precedence : DuckOp → Nat
  | .add | .sub => 1
  | .mul | .div | .intDiv => 2

def BqOp.toDuckdb : BqOp → DuckOp
  | .add => .add
  | .sub => .sub
  | .mul => .mul
  | .div => .div

def BqOp.precedence (o : BqOp) : Nat := o.toDuckdb.precedence

def BqForm.toDuckdb : BqForm → DuckForm
  | .paren => .paren
  | .call f => .call f

/-- Arithmetic expressions of BigQuery. -/
abbrev BqExpr := OpTree Atom BqForm BqOp

abbrev DuckExpr := OpTree Atom DuckForm DuckOp

/-- What the rules ask of the code around them: whether a number is not zero, and the decimal type
of a quotient. -/
structure RuleEnv where
  isNonzero : String → Bool
  decimalResultType : DuckExpr → DuckExpr → Option String

/-! ## The rules -/

section Rules

variable (env : RuleEnv)

def isNonzeroLiteral : BqExpr → Bool
  | .leaf (.number text) => env.isNonzero text
  | .unary _ e => isNonzeroLiteral e
  | .form .paren [e] => isNonzeroLiteral e
  | _ => false

mutual

/-- The tree that reaches the rules, with every division guarded. -/
def rewriteDivision : BqExpr → DuckExpr
  | .leaf a => .leaf a
  | .unary o e => .unary o.toDuckdb (rewriteDivision e)
  | .binary .div l r =>
    let quotient := .binary .div (rewriteDivision l) (rewriteDivision r)
    if isNonzeroLiteral env r then quotient else .form .divisionCase [rewriteDivision r, quotient]
  | .binary o l r => .binary o.toDuckdb (rewriteDivision l) (rewriteDivision r)
  | .form f args => .form f.toDuckdb (rewriteDivisions args)

def rewriteDivisions : List BqExpr → List DuckExpr
  | [] => []
  | e :: rest => rewriteDivision e :: rewriteDivisions rest

end

def tryWrap (inner : DuckExpr) : DuckExpr := .form .try_ [inner]

variable (a b : DuckExpr)

def safeAddRule : DuckExpr := tryWrap (.binary .add a b)

def safeSubtractRule : DuckExpr := tryWrap (.binary .sub a b)

def safeMultiplyRule : DuckExpr := tryWrap (.binary .mul a b)

def safeNegateRule (a : DuckExpr) : DuckExpr := tryWrap (.binary .sub (.leaf (.number "0")) a)

def ieeeDivideRule : DuckExpr :=
  .binary .div (.form (.cast "DOUBLE") [a]) (.form (.cast "DOUBLE") [b])

/-- `EXTRACT(WEEK FROM d)`: the numerator stands in parentheses, the quotient without. -/
def extractWeekSundayStartRule (d : DuckExpr) : DuckExpr :=
  let doyMinusOne := .binary .sub (.form (.extract "DOY") [d]) (.leaf (.number "1"))
  let firstDow := .form (.extract "DAYOFWEEK") [.form .dateTruncYear [d]]
  .binary .intDiv (.form .paren [.binary .add doyMinusOne firstDow]) (.leaf (.number "7"))

def rewriteForm : DuckForm → List DuckExpr → DuckExpr
  | .call .safeAdd, [a, b] => safeAddRule a b
  | .call .safeSubtract, [a, b] => safeSubtractRule a b
  | .call .safeMultiply, [a, b] => safeMultiplyRule a b
  | .call .safeNegate, [a] => safeNegateRule a
  | .call .ieeeDivide, [a, b] => ieeeDivideRule a b
  | .call .extractWeek, [d] => extractWeekSundayStartRule d
  | f, args => .form f args

def divDecimalRule (l r : DuckExpr) : DuckExpr :=
  match env.decimalResultType l r with
  | some typeName => .form (.cast typeName) [.binary .div l r]
  | none => .binary .div l r

mutual

/-- The rules, from the inside out. -/
def applyRules : DuckExpr → DuckExpr
  | .leaf a => .leaf a
  | .unary o e => .unary o (applyRules e)
  | .binary .div l r => divDecimalRule env (applyRules l) (applyRules r)
  | .binary o l r => .binary o (applyRules l) (applyRules r)
  | .form f args => rewriteForm f (applyRulesAll args)

def applyRulesAll : List DuckExpr → List DuckExpr
  | [] => []
  | e :: rest => applyRules e :: applyRulesAll rest

end

def translated (e : BqExpr) : DuckExpr := applyRules env (rewriteDivision env e)

/-! ## Operands -/

def isSum : BqExpr → Bool
  | .binary .add _ _ | .binary .sub _ _ => true
  | _ => false

def becomesQuotient : BqExpr → Bool
  | .form (.call .ieeeDivide) [_, _] | .form (.call .extractWeek) [_] => true
  | _ => false

/-- A product or quotient that stays one without parentheses: a divisor that may be zero or a
decimal result gives some. -/
def isProduct : BqExpr → Bool
  | .binary .mul _ _ => true
  | .binary .div l r =>
    isNonzeroLiteral env r && (env.decimalResultType (translated env l) (translated env r)).isNone
  | e => becomesQuotient e

def ArgsFit : BqForm → List BqExpr → Prop
  | .call .safeAdd, [_, b] | .call .safeSubtract, [_, b] | .call .safeNegate, [b] => isSum b = false
  | .call .safeMultiply, [a, b] => isSum a = false ∧ isSum b = false ∧ isProduct env b = false
  | _, _ => True

mutual

/-- **The operands survive**: no quotient without parentheses comes after a unary minus or to the
right in a product or quotient, and the arguments of calls fit. -/
def KeepsOperands : BqExpr → Prop
  | .leaf _ => True
  | .unary _ e => becomesQuotient e = false ∧ KeepsOperands e
  | .binary o l r =>
    (o.precedence = 2 → becomesQuotient r = false) ∧ KeepsOperands l ∧ KeepsOperands r
  | .form f args => ArgsFit env f args ∧ AllKeepOperands args

def AllKeepOperands : List BqExpr → Prop
  | [] => True
  | e :: rest => KeepsOperands e ∧ AllKeepOperands rest

end

end Rules

/-! ## What the rules build -/

variable {e l r : BqExpr}

section Built

variable (env : RuleEnv)

theorem translated_div (l r : BqExpr) :
    translated env (.binary .div l r) =
      if isNonzeroLiteral env r then divDecimalRule env (translated env l) (translated env r)
      else .form .divisionCase
        [translated env r, divDecimalRule env (translated env l) (translated env r)] := by
  rw [translated, rewriteDivision]
  split
  · rw [applyRules]; rfl
  · rfl

theorem translated_form (f : BqForm) (a : List BqExpr) :
    translated env (.form f a) = rewriteForm f.toDuckdb (a.map (translated env)) := by
  have ha : ∀ a : List BqExpr,
      applyRulesAll env (rewriteDivisions env a) = a.map (translated env) := by
    intro a
    induction a with
    | nil => rfl
    | cons e r ih => rw [rewriteDivisions, applyRulesAll, ih]; rfl
  rw [translated, rewriteDivision, applyRules, ha]

inductive FormView (env : RuleEnv) : BqForm → List BqExpr → Prop
  | safeAdd (a b : BqExpr) : FormView env (.call .safeAdd) [a, b]
  | safeSubtract (a b : BqExpr) : FormView env (.call .safeSubtract) [a, b]
  | safeMultiply (a b : BqExpr) : FormView env (.call .safeMultiply) [a, b]
  | safeNegate (a : BqExpr) : FormView env (.call .safeNegate) [a]
  | ieeeDivide (a b : BqExpr) : FormView env (.call .ieeeDivide) [a, b]
  | extractWeek (d : BqExpr) : FormView env (.call .extractWeek) [d]
  | stays {f : BqForm} {args : List BqExpr}
      (h : translated env (.form f args) = .form f.toDuckdb (args.map (translated env)))
      (hfit : ArgsFit env f args) (hquotient : becomesQuotient (.form f args) = false) :
      FormView env f args

theorem formView (f : BqForm) (args : List BqExpr) : FormView env f args := by
  cases f with
  | paren => exact .stays (translated_form env _ _) trivial rfl
  | call f =>
    rcases args with _ | ⟨a, _ | ⟨b, _ | ⟨c, r⟩⟩⟩
    · cases f <;> exact .stays (translated_form env _ _) trivial rfl
    · cases f with
      | safeNegate => exact .safeNegate a
      | extractWeek => exact .extractWeek a
      | _ => exact .stays (translated_form env _ _) trivial rfl
    · cases f with
      | safeAdd => exact .safeAdd a b
      | safeSubtract => exact .safeSubtract a b
      | safeMultiply => exact .safeMultiply a b
      | ieeeDivide => exact .ieeeDivide a b
      | _ => exact .stays (translated_form env _ _) trivial rfl
    · cases f <;> exact .stays (translated_form env _ _) trivial rfl

theorem translated_top (e : BqExpr) :
    (isSum e = true ∧ ∃ o l r, translated env e = .binary o l r ∧ o.precedence = 1) ∨
    (isSum e = false ∧ isProduct env e = true ∧
      ∃ o l r, translated env e = .binary o l r ∧ o.precedence = 2) ∨
    (isSum e = false ∧ isProduct env e = false ∧ (translated env e).isBinary = false) := by
  cases e with
  | leaf a | unary o e => exact .inr (.inr ⟨rfl, rfl, rfl⟩)
  | binary o l r =>
    cases o with
    | add | sub => exact .inl ⟨rfl, _, _, _, rfl, rfl⟩
    | mul => exact .inr (.inl ⟨rfl, rfl, _, _, _, rfl, rfl⟩)
    | div =>
      refine .inr ?_
      rw [translated_div, isProduct]
      cases isNonzeroLiteral env r with
      | false => exact .inr ⟨rfl, rfl, rfl⟩
      | true =>
        rw [if_pos rfl, divDecimalRule]
        cases env.decimalResultType (translated env l) (translated env r) with
        | none => exact .inl ⟨rfl, rfl, _, _, _, rfl, rfl⟩
        | some => exact .inr ⟨rfl, rfl, rfl⟩
  | form f args =>
    refine .inr ?_
    cases formView env f args with
    | ieeeDivide a b | extractWeek d => exact .inl ⟨rfl, rfl, _, _, _, rfl, rfl⟩
    | stays h hf hq => exact .inr ⟨rfl, hq, by rw [h]; rfl⟩
    | _ => exact .inr ⟨rfl, rfl, rfl⟩

theorem translated_fits_one (e : BqExpr) : (translated env e).Fits DuckOp.precedence 1 := by
  rcases translated_top env e with ⟨-, o, l, r, h, hp⟩ | ⟨-, -, o, l, r, h, hp⟩ | ⟨-, -, h⟩
  · rw [h]
    exact Nat.le_of_eq hp.symm
  · rw [h]
    exact Nat.le_trans (Nat.le_succ 1) (Nat.le_of_eq hp.symm)
  · exact fits_of_isBinary h 1

theorem translated_fits_two (e : BqExpr) :
    (translated env e).Fits DuckOp.precedence 2 ↔ isSum e = false := by
  rcases translated_top env e with ⟨hs, o, l, r, h, hp⟩ | ⟨hs, -, o, l, r, h, hp⟩ | ⟨hs, -, h⟩
  · rw [h, hs]
    refine iff_of_false (fun hl => ?_) nofun
    exact absurd (hp ▸ (show 2 ≤ o.precedence from hl)) (by omega)
  · rw [h]
    exact iff_of_true (Nat.le_of_eq hp.symm) hs
  · exact iff_of_true (fits_of_isBinary h 2) hs

theorem translated_fits_three (e : BqExpr) :
    (translated env e).Fits DuckOp.precedence 3 ↔ isSum e = false ∧ isProduct env e = false := by
  have hl : ∀ o : DuckOp, ¬ 3 ≤ o.precedence := by
    intro o
    cases o <;> decide
  rcases translated_top env e with ⟨hs, o, l, r, h, -⟩ | ⟨-, hp, o, l, r, h, -⟩ | ⟨hs, hp, h⟩
  · rw [h]
    exact iff_of_false (hl o) fun hn => by rw [hs] at hn; cases hn.1
  · rw [h]
    exact iff_of_false (hl o) fun hn => by rw [hp] at hn; cases hn.2
  · exact iff_of_true (fits_of_isBinary h 3) ⟨hs, hp⟩

theorem isProduct_of_isBinary (h : e.isBinary = false) :
    isSum e = false ∧ isProduct env e = becomesQuotient e := by
  cases e with
  | binary => cases h
  | _ => exact ⟨rfl, rfl⟩

theorem isBinary_translated (h : e.isBinary = false) :
    (translated env e).isBinary = becomesQuotient e := by
  obtain ⟨hsu, hpr⟩ := isProduct_of_isBinary env h
  rcases translated_top env e with ⟨hs, -⟩ | ⟨-, hp, o, l, r, ht, -⟩ | ⟨-, hp, ht⟩
  · rw [hs] at hsu
    cases hsu
  · rw [ht, ← hpr, hp]
    rfl
  · rw [ht, ← hpr, hp]

theorem isBinary_of_fits_three (h : e.Fits BqOp.precedence 3) : e.isBinary = false := by
  cases e with
  | binary o l r =>
    have hl : ¬ 3 ≤ o.precedence := by cases o <;> decide
    exact absurd h hl
  | _ => rfl

theorem isSum_of_fits_two (h : e.Fits BqOp.precedence 2) : isSum e = false := by
  cases e with
  | binary o l r =>
    cases o with
    | add | sub => exact absurd h (Nat.not_succ_le_self 1)
    | _ => rfl
  | _ => rfl

theorem wellFormed_sum_iff {o : DuckOp} (ho : o.precedence = 1) (hr : r.Fits BqOp.precedence 2) :
    WellFormed DuckOp.precedence (.binary o (translated env l) (translated env r)) ↔
      WellFormed DuckOp.precedence (translated env l) ∧
        WellFormed DuckOp.precedence (translated env r) := by
  simp only [WellFormed, ho, Nat.reduceAdd, translated_fits_one, translated_fits_two,
    isSum_of_fits_two hr, true_and]

theorem wellFormed_product_iff {o : DuckOp} (ho : o.precedence = 2) (hl : l.Fits BqOp.precedence 2)
    (hr : r.Fits BqOp.precedence 3) :
    WellFormed DuckOp.precedence (.binary o (translated env l) (translated env r)) ↔
      becomesQuotient r = false ∧ WellFormed DuckOp.precedence (translated env l) ∧
        WellFormed DuckOp.precedence (translated env r) := by
  obtain ⟨hs, hp⟩ := isProduct_of_isBinary env (isBinary_of_fits_three hr)
  simp only [WellFormed, ho, Nat.reduceAdd, translated_fits_two, translated_fits_three,
    isSum_of_fits_two hl, hs, hp, true_and]

theorem wellFormed_divDecimalRule (l r : DuckExpr) :
    WellFormed DuckOp.precedence (divDecimalRule env l r) ↔
      WellFormed DuckOp.precedence (.binary .div l r) := by
  rw [divDecimalRule]
  cases env.decimalResultType l r with
  | none => exact Iff.rfl
  | some => exact and_iff_left trivial

theorem allKeepOperands_iff {a : List BqExpr}
    (ih : ∀ e ∈ a, WellFormed DuckOp.precedence (translated env e) ↔ KeepsOperands env e) :
    AllWellFormed DuckOp.precedence (a.map (translated env)) ↔ AllKeepOperands env a := by
  induction a with
  | nil => exact Iff.rfl
  | cons e r i =>
    exact and_congr (ih e List.mem_cons_self) (i fun e' he' => ih e' (List.mem_cons_of_mem e he'))

attribute [local simp] rewriteForm BqForm.toDuckdb tryWrap WellFormed AllWellFormed ArgsFit
  DuckOp.precedence translated_fits_one translated_fits_two translated_fits_three

theorem wellFormed_form_iff (f : BqForm) (args : List BqExpr)
    (ih : ∀ e ∈ args, WellFormed DuckOp.precedence (translated env e) ↔ KeepsOperands env e) :
    WellFormed DuckOp.precedence (translated env (.form f args)) ↔
      ArgsFit env f args ∧ AllKeepOperands env args := by
  have ha := allKeepOperands_iff env ih
  cases formView env f args with
  | stays h hf hq =>
    rw [h, ← ha, and_iff_right hf]
    exact Iff.rfl
  | safeAdd a b =>
    rw [← ha, translated_form]
    simp [safeAddRule]
  | safeSubtract a b =>
    rw [← ha, translated_form]
    simp [safeSubtractRule]
  | safeMultiply a b =>
    rw [← ha, translated_form]
    simp [safeMultiplyRule, and_assoc]
  | safeNegate a =>
    rw [← ha, translated_form]
    simp [safeNegateRule]
  | ieeeDivide a b =>
    rw [← ha, translated_form]
    simp [ieeeDivideRule]
  | extractWeek d =>
    rw [← ha, translated_form]
    simp [extractWeekSundayStartRule]

/-- From which trees the rules build well-formed ones. -/
theorem wellFormed_translated_iff (e : BqExpr) (h : e.WellFormed BqOp.precedence) :
    WellFormed DuckOp.precedence (translated env e) ↔ KeepsOperands env e := by
  induction e using inductionOn with
  | leaf a => exact iff_of_true trivial trivial
  | unary o e ih =>
    show (translated env e).isBinary = false ∧ WellFormed DuckOp.precedence (translated env e) ↔ _
    rw [isBinary_translated env h.1, ih h.2]
    exact Iff.rfl
  | binary o l r i ihr =>
    obtain ⟨hl, hr, hw, hwr⟩ := h
    have ho := and_congr (i hw) (ihr hwr)
    rw [KeepsOperands, ← ho]
    cases o with
    | add =>
      rw [and_iff_right (show BqOp.precedence .add = 2 → _ from fun h => by cases h)]
      exact wellFormed_sum_iff env rfl hr
    | sub =>
      rw [and_iff_right (show BqOp.precedence .sub = 2 → _ from fun h => by cases h)]
      exact wellFormed_sum_iff env rfl hr
    | mul =>
      rw [imp_iff_right (show BqOp.precedence .mul = 2 from rfl)]
      exact wellFormed_product_iff env rfl hl hr
    | div =>
      -- guarded or not, the quotient is the same
      rw [imp_iff_right (show BqOp.precedence .div = 2 from rfl),
        ← wellFormed_product_iff env (o := .div) rfl hl hr, ← wellFormed_divDecimalRule,
        translated_div]
      split
      · exact Iff.rfl
      · refine ⟨fun hwf => hwf.2.1, fun hwf => ⟨?_, hwf, trivial⟩⟩
        exact ((wellFormed_divDecimalRule env _ _).1 hwf).2.2.2
  | form f args ih =>
    exact wellFormed_form_iff env f args fun e he => ih e he (wellFormed_of_mem h he)

end Built

/-- **When operands survive**: the printed text is read back as the tree that the rules built iff
the operands survive. -/
theorem operands_kept_iff (env : RuleEnv) (text : List (OpTree.Token Atom BqForm BqOp)) (e : BqExpr)
    (h : read BqOp.precedence text = some e) :
    read DuckOp.precedence (translated env e).print = some (translated env e) ↔
      KeepsOperands env e :=
  (read_print_iff _).trans (wellFormed_translated_iff env e (wellFormed_of_read h))

def integerEnv : RuleEnv where
  isNonzero text := text ≠ "0"
  decimalResultType _ _ := none

def column (name : String) : BqExpr := .leaf (.column name)

def keptExpr : BqExpr :=
  .binary .sub (column "a")
    (.form (.call .safeSubtract) [column "b", .binary .mul (column "c") (column "d")])

/-- A product binds tightly enough as the second argument of a difference. -/
theorem operands_kept_product :
    read DuckOp.precedence (translated integerEnv keptExpr).print =
      some (translated integerEnv keptExpr) :=
  (operands_kept_iff integerEnv keptExpr.print keptExpr rfl).2
    ⟨nofun, trivial, rfl, trivial, ⟨fun _ => rfl, trivial, trivial⟩, trivial⟩

/-- **Operands that do not survive**: `SAFE_SUBTRACT(a, b - c)` is read as `TRY((a - b) - c)`, and
`a * IEEE_DIVIDE(b, c)` as the quotient of a product. -/
theorem operands_lost :
    let a : DuckExpr := .leaf (.column "a")
    let b : DuckExpr := .leaf (.column "b")
    let c : DuckExpr := .leaf (.column "c")
    read DuckOp.precedence (translated integerEnv (.form (.call .safeSubtract)
        [column "a", .binary .sub (column "b") (column "c")])).print =
      some (tryWrap (.binary .sub (.binary .sub a b) c)) ∧
    read DuckOp.precedence (translated integerEnv (.binary .mul (column "a")
        (.form (.call .ieeeDivide) [column "b", column "c"]))).print =
      some (.binary .div (.binary .mul a (.form (.cast "DOUBLE") [b]))
        (.form (.cast "DOUBLE") [c])) :=
  ⟨rfl, rfl⟩

end Bqemulator
