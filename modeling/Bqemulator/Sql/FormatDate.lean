import Mathlib

/-!
# Years in formatted dates

`STRFTIME` writes a year with four digits. A format is cut at its `%Y`, the rest is left to
`STRFTIME`, and the year is written without zeros in between.
-/

namespace Bqemulator

open List

/-- The runs between the `%Y` of a format, the first of them begun. -/
def splitFormatOnYear (run : List Char) : List Char → List (List Char)
  | '%' :: c :: fmt =>
    if c = 'Y' then run :: splitFormatOnYear [] fmt else splitFormatOnYear (run ++ ['%', c]) fmt
  | c :: fmt => splitFormatOnYear (run ++ [c]) fmt
  | [] => [run]

/-- An operand of the concatenation. -/
inductive DateTerm where
  | strftime (fmt : List Char)
  | year
deriving DecidableEq

def runTerms (run : List Char) : List DateTerm := if run = [] then [] else [.strftime run]

def yearTerms (parts : List (List Char)) : List DateTerm :=
  [DateTerm.year].intercalate (parts.map runTerms)

/-- The rule, for a format with the text `%Y` in it: the operands of the concatenation, or the
call as it was. -/
def formatDateYearPad (fmt : List Char) : Option (List DateTerm) :=
  if ¬ ['%', 'Y'] <:+: fmt then none
  else if (splitFormatOnYear [] fmt).length < 2 then some [.strftime fmt]
  else some (yearTerms (splitFormatOnYear [] fmt))

/-- The directives and the characters of a format. A directive may have a flag. -/
def pieces : List Char → List (List Char)
  | '%' :: '-' :: c :: fmt =>
    if c = '%' then ['%', '-'] :: pieces (c :: fmt) else ['%', '-', c] :: pieces fmt
  | '%' :: c :: fmt => ['%', c] :: pieces fmt
  | c :: fmt => [c] :: pieces fmt
  | [] => []

/-- One text after the other, if none fails. -/
def renderAll {α : Type} (render : α → Option (List Char)) : List α → Option (List Char)
  | [] => some []
  | a :: as => do return (← render a) ++ (← renderAll render as)

/-- **The database**: the year of a date, and what it renders for a directive or a character. -/
structure DateEngine (Date : Type) where
  year : Date → Int
  render : Date → List Char → Option (List Char)

namespace DateEngine

variable {Date : Type} (E : DateEngine Date) (date : Date)

/-- `STRFTIME` renders a format piece by piece, and refuses the empty one. -/
def strftime (fmt : List Char) : Option (List Char) :=
  if fmt = [] then none else renderAll (E.render date) (pieces fmt)

def eval : DateTerm → Option (List Char)
  | .strftime fmt => E.strftime date fmt
  | .year => some (toString (E.year date)).toList

/-- The text of a format, with the years as they are. -/
def formatDate (fmt : List Char) : Option (List Char) :=
  renderAll (fun piece => if piece = ['%', 'Y'] then E.eval date .year else E.render date piece)
    (pieces fmt)

end DateEngine

theorem renderAll_append {α : Type} {render : α → Option (List Char)} (as bs : List α) :
    renderAll render (as ++ bs) =
      (renderAll render as).bind fun a => (renderAll render bs).map (a ++ ·) := by
  induction as with
  | nil => cases h : renderAll render bs <;> simp [renderAll, h]
  | cons a as ih =>
    cases ha : render a <;> cases has : renderAll render as <;> cases hb : renderAll render bs <;>
      simp [renderAll, ih, ha, has, hb]

/-- A run that is cut where it ends: what follows begins a piece of its own. -/
def Cut (run fmt : List Char) : Prop :=
  ∀ x, x = [] ∨ x.head? = fmt.head? → pieces (run ++ x) = pieces run ++ pieces x

variable {run fmt p : List Char}

theorem split_ne_nil (run fmt : List Char) : splitFormatOnYear run fmt ≠ [] := by
  fun_induction splitFormatOnYear run fmt <;> simp_all

section Text

variable {Date : Type} {E : DateEngine Date} {date : Date}

theorem renderAll_runTerms (hy : ['%', 'Y'] ∉ pieces run) :
    renderAll (E.eval date) (runTerms run) = E.formatDate date run := by
  have hre : ∀ ps : List (List Char), ['%', 'Y'] ∉ ps → renderAll (E.render date) ps =
      renderAll (fun p => if p = ['%', 'Y'] then E.eval date .year else E.render date p) ps := by
    intro ps hp
    induction ps with
    | nil => rfl
    | cons p ps ih =>
      rw [mem_cons, not_or] at hp
      rw [renderAll, renderAll, ih hp.2, if_neg (Ne.symm hp.1)]
  unfold runTerms
  split_ifs with hr
  · subst hr
    rfl
  · rw [DateEngine.formatDate, ← hre _ hy]
    cases h : renderAll (E.render date) (pieces run) <;>
      simp [renderAll, DateEngine.eval, DateEngine.strftime, hr, h]

variable (E date) in
/-- What is cut off a format, and what was begun before it, have together their text. -/
def KeepsText (fmt : List Char) : Prop :=
  ∀ run, Cut run fmt → ['%', 'Y'] ∉ pieces run →
    renderAll (E.eval date) (yearTerms (splitFormatOnYear run fmt)) = E.formatDate date (run ++ fmt)

theorem KeepsText.piece (h : KeepsText E date fmt) (hne : p ≠ []) (hp : p ≠ ['%', 'Y'])
    (hpi : ∀ x, x = [] ∨ x.head? = fmt.head? → pieces (p ++ x) = p :: pieces x)
    (hs : ∀ run, splitFormatOnYear run (p ++ fmt) = splitFormatOnYear (run ++ p) fmt) :
    KeepsText E date (p ++ fmt) := by
  intro run hc hy
  have hh (x : List Char) : (p ++ x).head? = (p ++ fmt).head? := by
    obtain ⟨c, p, rfl⟩ := exists_cons_of_ne_nil hne
    rfl
  have hr (x : List Char) (hx : x = [] ∨ x.head? = fmt.head?) :
      pieces (run ++ p ++ x) = pieces run ++ p :: pieces x := by
    rw [append_assoc, hc _ (.inr (hh x)), hpi x hx]
  have he : pieces (run ++ p) = pieces run ++ [p] := by simpa [pieces] using hr [] (.inl rfl)
  have hn : Cut (run ++ p) fmt := fun x hx => by rw [hr x hx, he, append_cons]
  rw [hs, h _ hn (by simp [he, hy, hp.symm]), append_assoc]

theorem KeepsText.year (h : KeepsText E date fmt) : KeepsText E date ('%' :: 'Y' :: fmt) := by
  intro run hc hy
  have hr := h [] (fun _ _ => rfl) not_mem_nil
  obtain ⟨part, p, hp⟩ := exists_cons_of_ne_nil (split_ne_nil [] fmt)
  rw [hp] at hr
  rw [DateEngine.formatDate, hc _ (.inr rfl), renderAll_append]
  have ht : yearTerms (run :: part :: p) =
      runTerms run ++ .year :: yearTerms (part :: p) := by simp [yearTerms, intercalate]
  simp only [splitFormatOnYear, if_true, hp, ht]
  rw [renderAll_append, renderAll_runTerms hy, DateEngine.formatDate]
  simp only [renderAll, hr]
  rfl

variable (E date) in
theorem keepsText (fmt : List Char) : KeepsText E date fmt := by
  induction fmt using pieces.induct with
  | case1 t ih =>
    -- a flag before a percent sign ends a piece, whatever directive follows
    refine ih.piece (p := ['%', '-']) (by simp) (by simp) ?_ fun _ => by simp [splitFormatOnYear]
    rintro (_ | ⟨c, x⟩) hx
    · rfl
    · obtain rfl : c = '%' := by simpa using hx
      simp [pieces]
  | case2 c t hc ih =>
    exact ih.piece (p := ['%', '-', c]) (by simp) (by simp) (fun _ _ => by simp [pieces, hc])
      fun _ => by simp [splitFormatOnYear, hc]
  | case3 c t h ih =>
    by_cases hY : c = 'Y'
    · subst hY
      exact ih.year
    · refine ih.piece (p := ['%', c]) (by simp) (by simp [hY]) ?_
        fun _ => by simp [splitFormatOnYear, hY]
      intro x hx
      rcases t with - | ⟨c', t⟩ <;> rcases x with - | ⟨c'', x⟩ <;> simp_all [pieces]
  | case4 c t h h' ih =>
    refine ih.piece (p := [c]) (by simp) (by simp) (fun x hx => ?_) fun _ => ?_
    · rcases t with - | ⟨c', t⟩ <;> rcases x with - | ⟨c'', x⟩ <;> simp_all [pieces]
    · rcases t with - | ⟨c', t⟩ <;> simp_all [splitFormatOnYear]
  | case5 =>
    intro run hcu hy
    simp [splitFormatOnYear, yearTerms, renderAll_runTerms hy]

theorem eq_of_split (h : splitFormatOnYear run fmt = [p]) : p = run ++ fmt := by
  fun_induction splitFormatOnYear run fmt <;> simp_all [split_ne_nil]

theorem flatten_pieces (fmt : List Char) : (pieces fmt).flatten = fmt := by
  fun_induction pieces fmt <;> simp_all

/-- **The rule is applied wherever a year is written, and its expression has the text of the
format**, with each year as it is. -/
theorem eval_formatDateYearPad (fmt : List Char) :
    (['%', 'Y'] ∈ pieces fmt → ∃ terms, formatDateYearPad fmt = some terms) ∧
      ∀ terms, formatDateYearPad fmt = some terms →
        renderAll (E.eval date) terms = E.formatDate date fmt := by
  refine ⟨fun hy => ?_, fun terms h => ?_⟩
  · have hi := infix_of_mem_flatten hy
    rw [flatten_pieces] at hi
    rw [formatDateYearPad, if_neg (not_not_intro hi)]
    split <;> exact ⟨_, rfl⟩
  have ht := keepsText E date fmt [] (fun _ _ => rfl) not_mem_nil
  unfold formatDateYearPad at h
  split_ifs at h with hi hpa
  · -- the `%Y` that is found belongs to an escaped percent sign
    obtain ⟨part, hp⟩ : ∃ part, splitFormatOnYear [] fmt = [part] := by
      rw [← length_eq_one_iff]
      have := length_pos_iff.2 (split_ne_nil [] fmt)
      omega
    obtain rfl := eq_of_split hp
    cases h
    have hne : part ≠ [] := fun hn => by simp [hn] at hi
    simpa [hp, yearTerms, runTerms, hne] using ht
  · cases h
    exact ht

end Text

/-- The first `%Y` of `%%Y %Y` is escaped. -/
theorem eval_formatDateYearPad_escaped :
    let E : DateEngine Int := ⟨id, fun _ piece => some piece⟩
    renderAll (E.eval 7) [.strftime "%%Y ".toList, .year] = E.formatDate 7 "%%Y %Y".toList :=
  (eval_formatDateYearPad _).2 _ (by decide)

end Bqemulator
