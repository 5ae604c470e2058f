import Bqemulator.Sql.Ranges

/-!
# Rules that build a lambda

Some functions of lists are rewritten to `list_filter` or `list_transform` with a lambda over `x` or
`c`. Two of the rules put their arguments under the lambda, where its variable hides the column of
that name.
-/

namespace Bqemulator

open Option

variable {T S V : Type} [LinearOrder T]

/-- **The points of a series**: from `s` on, each a step after the last, up to `stop`. -/
def IsSeries (next : T → T) (stop : T) : T → List T → Prop
  | s, [] => stop ≤ s
  | s, e :: es => s < stop ∧ e = s ∧ IsSeries next stop (next s) es

/-- **Consecutive sub-ranges** from `s` on, the last one cut at `stop`. -/
def Consecutive (next : T → T) (stop : T) : T → List (Range T) → Prop
  | s, [] => stop ≤ s
  | s, r :: rs => s < stop ∧ r = ⟨some s, some (min (next s) stop)⟩ ∧
      Consecutive next stop (next s) rs

/-- **The database**: the cell of a lambda variable, a step after a point, `range`, and `ord` of a
cell, some number for the empty one. -/
structure ListEngine (T S V : Type) [LinearOrder T] where
  cell : T → V
  add : T → S → T
  range : T → T → S → List T
  ord : List Char → ℤ
  ord_cons : ∀ c cs, ord (c :: cs) = c.toNat
  isSeries : ∀ s stop d, (∀ x, x < add x d) → IsSeries (add · d) stop s (range s stop d)

variable (E : ListEngine T S V)

/-- The columns under a lambda over `x`. -/
def ListEngine.bindX (row : String → V) (e : T) : String → V := Function.update row "x" (E.cell e)

/-! ## Expressions

An argument is a function of the columns, whose names are in lower case: the database compares names
without their case. -/

section Expressions

variable (point : (String → V) → Option T) (boundaries : (String → V) → Option (List T))
  (rng : (String → V) → Range T) (step : (String → V) → Option S)
  (operand : (String → V) → Option (List Char))

def rangeBucket (row : String → V) : Option ℕ :=
  if (point row).isNone ∨ (boundaries row).isNone then none
  else (boundaries row).map fun bs =>
    (bs.filter fun b => sqlLe (some b) (point (E.bindX row b)) = some true).length

/-- `LEAST(x + step, r."end")` under the lambda; `LEAST` skips a `NULL`. -/
def clippedEnd (row : String → V) (x : T) : Option T :=
  merge min ((step (E.bindX row x)).map (E.add x)) (rng (E.bindX row x)).stop

def generateRangeArray (row : String → V) : Option (List (Range T)) :=
  match (rng row).start, (rng row).stop, step row with
  | some s, some stop, some d =>
    some ((E.range s stop d).map fun x => ⟨some x, clippedEnd E rng step row x⟩)
  | _, _, _ => none

/-- `string_split(s, '')`: the characters one by one, and one empty cell for the empty text. -/
def stringSplit (s : List Char) : List (List Char) :=
  if s = [] then [[]] else s.map ([·])

def toCodePoints (row : String → V) : Option (List ℤ) :=
  (operand row).map fun s => (stringSplit s).map E.ord

def codePointsToString (arr : (String → V) → Option (List ℕ)) (row : String → V) :
    Option (List Char) :=
  (arr row).map fun ns => ns.flatMap fun x => [Char.ofNat x]

/-- **The functions of lists** that the expressions stand for. -/
structure ElementWise : Prop where
  rangeBucket : ∀ boundaries row, rangeBucket E point boundaries row =
    (point row).bind fun p => (boundaries row).map fun bs => (bs.filter (· ≤ p)).length
  generateRangeArray : ∀ row s stop d, rng row = ⟨some s, some stop⟩ → step row = some d →
    (∀ x, x < E.add x d) →
    ∃ rs, generateRangeArray E rng step row = some rs ∧ Consecutive (E.add · d) stop s rs
  toCodePoints : ∀ row,
    toCodePoints E operand row = (operand row).map (·.map fun c => (c.toNat : ℤ))
  codePointsToString : ∀ (arr : (String → V) → _) row,
    codePointsToString arr row = (arr row).map (·.map Char.ofNat)

/-- **Arguments that a lambda does not disturb**: no value depends on the column `x`, and no text is
empty. -/
structure Hygienic : Prop where
  point : ∀ row e, point (E.bindX row e) = point row
  rng : ∀ row e, rng (E.bindX row e) = rng row
  step : ∀ row e, step (E.bindX row e) = step row
  operand : ∀ row, operand row ≠ some []

end Expressions

variable {E} {point : (String → V) → Option T} {rng : (String → V) → Range T}
  {step : (String → V) → Option S} {operand : (String → V) → Option (List Char)}

/-- Ranges that begin at the points of a series are consecutive when each ends a step later. -/
theorem consecutive_map {next : T → T} {stop : T} {f : T → Range T} {s : T} {es : List T}
    (he : IsSeries next stop s es) (hf : ∀ e, f e = ⟨some e, some (min (next e) stop)⟩) :
    Consecutive next stop s (es.map f) := by
  induction es generalizing s with
  | nil => exact he
  | cons e es ih =>
    obtain ⟨hl, rfl, hr⟩ := he
    exact ⟨hl, hf e, ih hr⟩

theorem map_stringSplit {s : List Char} (h : s ≠ []) :
    (stringSplit s).map E.ord = s.map fun c => (c.toNat : ℤ) := by
  simp [stringSplit, h, Function.comp_def, E.ord_cons]

/-- **The expressions compute the functions of lists** when the lambda captures nothing. -/
theorem elementWise_of_hygienic (h : Hygienic E point rng step operand) :
    ElementWise E point rng step operand where
  rangeBucket boundaries row := by
    cases hp : point row with
    | none => simp [rangeBucket, hp]
    | some p => cases hb : boundaries row <;> simp [rangeBucket, h.point, hp, hb, sqlLe]
  generateRangeArray row s stop d hr hd hpos := by
    simp only [generateRangeArray, hr, hd, some.injEq, exists_eq_left']
    refine consecutive_map (E.isSeries s stop d hpos) fun x => ?_
    simp [clippedEnd, h.rng, h.step, hr, hd, merge]
  toCodePoints row := by
    cases ho : operand row with
    | none => simp [toCodePoints, ho]
    | some s => simp [toCodePoints, ho, map_stringSplit fun hs => h.operand row (hs ▸ ho)]
  codePointsToString arr row := by simp [codePointsToString, List.map_eq_flatMap]

def points (next : ℤ → ℤ) (stop : ℤ) : ℕ → ℤ → List ℤ
  | 0, _ => []
  | n + 1, s => if s < stop then s :: points next stop n (next s) else []

theorem isSeries_points {next : ℤ → ℤ} {stop : ℤ} (hp : ∀ x, x < next x) :
    ∀ {n : ℕ} {s : ℤ}, stop - s ≤ n → IsSeries next stop s (points next stop n s)
  | 0, s, h => by
    rw [points, IsSeries]
    omega
  | n + 1, s, h => by
    rw [points]
    split_ifs with hl
    · have hn := hp s
      exact ⟨hl, rfl, isSeries_points hp (by omega)⟩
    · exact not_lt.1 hl

def intEngine : ListEngine ℤ ℤ ℤ where
  cell := id
  add := (· + ·)
  range s stop d := points (· + d) stop (stop - s).toNat s
  ord cell := (cell.head?.map fun c => (c.toNat : ℤ)).getD (-1)
  ord_cons _ _ := rfl
  isSeries _ _ _ hpos := isSeries_points hpos (Int.self_le_toNat _)

/-- A column `y` and a constant range are not captured. -/
theorem elementWise_of_hygienic_y :
    ElementWise intEngine (fun row => some (row "y")) (fun _ => ⟨some 0, some 7⟩)
      (fun _ => some (2 : ℤ)) fun _ => some ['a'] :=
  elementWise_of_hygienic ⟨fun _ _ => by simp [ListEngine.bindX], fun _ _ => rfl, fun _ _ => rfl,
    by simp⟩

/-- A column `x` is compared with itself, and the empty text has a code point. -/
theorem elementWise_fails :
    rangeBucket intEngine (fun row => some (row "x")) (fun _ => some [10, 20, 30]) (fun _ => 15) =
      some 3 ∧
    toCodePoints intEngine (fun _ => some []) (fun _ => 15) = some [-1] ∧
    ¬ ElementWise intEngine (fun row => some (row "x")) (fun _ => ⟨none, none⟩)
      (fun _ => (none : Option ℤ)) fun _ => none := by
  refine ⟨by decide, by decide, fun h => ?_⟩
  have hb := h.rangeBucket (fun _ => some [10, 20, 30]) fun _ => 15
  revert hb
  decide

end Bqemulator
