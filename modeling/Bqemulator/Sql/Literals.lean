import Bqemulator.Lib.Substitution
import Bqemulator.Lib.Text

/-!
# String literals

The emulator writes a value into a query as a literal in single quotes, and doubles the quotes of
the value. BigQuery's lexer reads a literal up to the next quote; a backslash escapes, and a quote
does not. -/

namespace Bqemulator

open List Option

open Text (singleQuote)

def backslash : Char := Char.ofNat 92

/-- The character that a backslash and this one stand for. -/
def unescaped? (e : Char) : Option Char :=
  if e = 'a' then some (Char.ofNat 7)
  else if e = 'b' then some (Char.ofNat 8)
  else if e = 'f' then some (Char.ofNat 12)
  else if e = 'n' then some '\n'
  else if e = 'r' then some '\r'
  else if e = 't' then some '\t'
  else if e = 'v' then some (Char.ofNat 11)
  else if e = backslash then some backslash
  else if e = singleQuote then some singleQuote
  else none

/-- A literal up to the quote that ends it. -/
def readBody : List Char → Option (List Char × List Char)
  | [] => none
  | c :: t =>
    if c = singleQuote then some ([], t)
    else if c = backslash then
      match t with
      | [] => none
      | e :: t' =>
        match unescaped? e with
        | some d => (readBody t').map fun m => (d :: m.1, m.2)
        -- the lexer keeps a backslash that escapes nothing
        | none => (readBody (e :: t')).map fun m => (c :: m.1, m.2)
    else (readBody t).map fun m => (c :: m.1, m.2)

/-- The value of a literal at the front of a text. -/
def readLiteral : List Char → Option (List Char × List Char)
  | [] => none
  | c :: t => if c = singleQuote then readBody t else none

variable (v : List Char)

/-- What the lexer reads of a literal. -/
def expectValue (t : List Char) : Option (List Char) :=
  match readLiteral t with
  | some (u, rest) => if u = v then some rest else none
  | none => none

def doubled (c : Char) : List Char :=
  if c = singleQuote then [c, c] else [c]

/-- The literal that is written for a value. -/
def sqlLiteral : List Char :=
  singleQuote :: (v.flatMap doubled ++ [singleQuote])

/-- The value has no quote, and no backslash that escapes. -/
def plain : List Char → Bool
  | [] => true
  | c :: t =>
    if c = singleQuote then false
    else if c = backslash then
      match t with
      | [] => false
      | e :: t' => (unescaped? e).isNone && plain (e :: t')
    else plain t

/-! ## Reading a body -/

section Body

variable {c e : Char} {t : List Char}

theorem readBody_quote : readBody (singleQuote :: t) = some ([], t) := by
  rw [readBody.eq_def]
  exact if_pos rfl

theorem readBody_cons (hquote : c ≠ singleQuote) (hs : c ≠ backslash) :
    readBody (c :: t) = (readBody t).map fun m => (c :: m.1, m.2) := by
  rw [readBody.eq_def]
  exact (if_neg hquote).trans (if_neg hs)

theorem readBody_escape {d : Char} (h : unescaped? e = some d) :
    readBody (backslash :: e :: t) = (readBody t).map fun m => (d :: m.1, m.2) := by
  rw [readBody.eq_def]
  simp only [show backslash ≠ singleQuote by decide, if_false, if_true, h]

theorem readBody_slash (h : unescaped? e = none) :
    readBody (backslash :: e :: t) = (readBody (e :: t)).map fun m => (backslash :: m.1, m.2) := by
  rw [readBody.eq_def]
  simp only [show backslash ≠ singleQuote by decide, if_false, if_true, h]

theorem unescaped?_eq_backslash (h : unescaped? e = some backslash) : e = backslash := by
  unfold unescaped? at h
  split_ifs at h with _ _ _ _ _ _ _ hs
  all_goals first
    | exact hs
    | exact absurd (some.inj h) (by decide)

end Body

/-- The cases of the lexer. -/
@[elab_as_elim]
theorem bodyInduction {motive : List Char → Prop} (nil : motive [])
    (quote : ∀ t, motive (singleQuote :: t)) (last : motive [backslash])
    (escape : ∀ e d t, unescaped? e = some d → motive t → motive (backslash :: e :: t))
    (slash : ∀ e t, unescaped? e = none → motive (e :: t) → motive (backslash :: e :: t))
    (char : ∀ c t, c ≠ singleQuote → c ≠ backslash → motive t → motive (c :: t)) :
    ∀ t, motive t
  | [] => nil
  | c :: t => by
    by_cases hquote : c = singleQuote
    · rw [hquote]
      exact quote t
    by_cases hs : c = backslash
    · rw [hs]
      match t with
      | [] => exact last
      | e :: t =>
        cases he : unescaped? e with
        | some d => exact escape e d t he (bodyInduction nil quote last escape slash char t)
        | none => exact slash e t he (bodyInduction nil quote last escape slash char (e :: t))
    · exact char c t hquote hs (bodyInduction nil quote last escape slash char t)

section Plain

variable {c e : Char} {t : List Char}

theorem not_plain_quote : plain (singleQuote :: t) = false := by
  rw [plain.eq_def]
  exact if_pos rfl

theorem not_plain_last : plain [backslash] = false := by decide

theorem plain_slash : plain (backslash :: e :: t) = ((unescaped? e).isNone && plain (e :: t)) := by
  rw [plain.eq_def]
  simp only [show backslash ≠ singleQuote by decide, if_false, if_true]

theorem plain_cons (hquote : c ≠ singleQuote) (hs : c ≠ backslash) :
    plain (c :: t) = plain t := by
  rw [plain.eq_def]
  exact (if_neg hquote).trans (if_neg hs)

end Plain

theorem notMem_of_plain (h : plain v = true) : singleQuote ∉ v := by
  induction v using bodyInduction with
  | nil => exact not_mem_nil
  | quote t => rw [not_plain_quote] at h; cases h
  | last => rw [not_plain_last] at h; cases h
  | escape e d t he _ => simp [plain_slash, he] at h
  | slash e t he ih =>
    rw [plain_slash, he, isNone_none, Bool.true_and] at h
    rw [mem_cons, not_or]
    exact ⟨by decide, ih h⟩
  | char c t hquote hs ih =>
    rw [plain_cons hquote hs] at h
    rw [mem_cons, not_or]
    exact ⟨Ne.symm hquote, ih h⟩

/-- A plain value is read as it is. -/
theorem readBody_of_plain (rest v : List Char) (h : plain v = true) :
    readBody (v ++ singleQuote :: rest) = some (v, rest) := by
  induction v using bodyInduction with
  | nil => exact readBody_quote
  | quote t => rw [not_plain_quote] at h; cases h
  | last => rw [not_plain_last] at h; cases h
  | escape e d t he _ => simp [plain_slash, he] at h
  | slash e t he ih =>
    rw [plain_slash, he, isNone_none, Bool.true_and] at h
    have hr := ih h
    rw [cons_append] at hr
    rw [cons_append, cons_append, readBody_slash he, hr]
    rfl
  | char c t hquote hs ih =>
    rw [plain_cons hquote hs] at h
    rw [cons_append, readBody_cons hquote hs, ih h]
    rfl

theorem map_cons_eq_some_iff {d : Char} {m : Option (List Char × List Char)} {w r : List Char} :
    m.map (fun m => (d :: m.1, m.2)) = some (w, r) ↔ ∃ u, m = some (u, r) ∧ w = d :: u := by
  cases m with
  | none => simp
  | some m =>
    obtain ⟨u, r'⟩ := m
    simp only [map_some, some.injEq, Prod.mk.injEq]
    constructor
    · rintro ⟨rfl, rfl⟩
      exact ⟨u, ⟨rfl, rfl⟩, rfl⟩
    · rintro ⟨u', ⟨rfl, rfl⟩, rfl⟩
      exact ⟨rfl, rfl⟩

theorem replicate_append_cons (k : Nat) (c : Char) (t : List Char) :
    (k = 0 ∧ replicate k backslash ++ c :: t = c :: t) ∨
      ∃ j, k = j + 1 ∧ replicate k backslash ++ c :: t =
        backslash :: (replicate j backslash ++ c :: t) := by
  cases k with
  | zero => exact .inl ⟨rfl, rfl⟩
  | succ j => exact .inr ⟨j, rfl, by rw [replicate_succ, cons_append]⟩

theorem replicate_append_backslash (k : Nat) (t : List Char) :
    replicate k backslash ++ backslash :: t =
      backslash :: (replicate k backslash ++ t) := by
  rw [← cons_append, ← replicate_succ, replicate_succ', append_assoc]
  rfl

section Behind

variable {rest r p : List Char}

section

variable (hquote : singleQuote ∉ p)

include hquote

/-- Reading behind: `k` backslashes too many are there when `p` has been read to its end, or it
ends in one that is read with what follows. -/
theorem readBody_append {t x : List Char} : ∀ k : Nat,
    readBody (p ++ t) = some (replicate k backslash ++ (p ++ x), r) →
    (∃ j, readBody t = some (replicate j backslash ++ x, r) ∧
        (j = 0 → k = 0 ∧ plain p = true)) ∨
      ∃ j, readBody (backslash :: t) = some (backslash :: (replicate j backslash ++ x), r) := by
  induction p using bodyInduction with
  | nil => exact fun k h => .inl ⟨k, h, fun hk => ⟨hk, rfl⟩⟩
  | quote t => exact absurd mem_cons_self hquote
  | last =>
    intro k h
    rw [cons_append, nil_append, cons_append, nil_append, replicate_append_backslash] at h
    exact .inr ⟨k, h⟩
  | escape e d t he ih =>
    intro k h
    rw [cons_append, cons_append, readBody_escape he, map_cons_eq_some_iff,
      cons_append, cons_append, replicate_append_backslash] at h
    obtain ⟨u, hr, h⟩ := h
    obtain ⟨rfl, hu⟩ := cons.inj h
    obtain rfl := unescaped?_eq_backslash he
    rw [replicate_append_backslash, ← cons_append, ← replicate_succ] at hu
    have hn : singleQuote ∉ t := fun hm => hquote (by simp [hm])
    rcases ih hn (k + 1) (hu ▸ hr) with ⟨j, hen, hj⟩ | hen
    · exact .inl ⟨j, hen, fun h => absurd (hj h).1 (Nat.succ_ne_zero k)⟩
    · exact .inr hen
  | slash e t he ih =>
    intro k h
    rw [cons_append, cons_append, readBody_slash he, map_cons_eq_some_iff,
      cons_append, replicate_append_backslash] at h
    obtain ⟨u, hr, h⟩ := h
    have hn : singleQuote ∉ e :: t := fun hm => hquote (mem_cons_of_mem _ hm)
    rw [plain_slash, he]
    exact ih hn k ((cons.inj h).2 ▸ hr)
  | char c t hc hs ih =>
    intro k h
    rw [cons_append, readBody_cons hc hs, map_cons_eq_some_iff, cons_append] at h
    obtain ⟨u, hr, h⟩ := h
    rcases replicate_append_cons k c (t ++ x) with ⟨rfl, heq⟩ | ⟨j, -, heq⟩
    · rw [heq] at h
      have hn : singleQuote ∉ t := fun hm => hquote (mem_cons_of_mem _ hm)
      rw [plain_cons hc hs]
      exact ih hn 0 ((cons.inj h).2 ▸ hr)
    · rw [heq] at h
      exact absurd (cons.inj h).1.symm hs

/-- A value that is read as it is is plain. -/
theorem plain_of_readBody
    (h : readBody (p ++ singleQuote :: rest) = some (p, r)) : plain p = true := by
  rw [← append_nil p, append_assoc, nil_append] at h
  rcases readBody_append hquote 0 h with ⟨j, h, hj⟩ | ⟨j, h⟩
  · rw [readBody_quote, append_nil, some.injEq, Prod.mk.injEq] at h
    exact (hj ((replicate_eq_nil_iff _).1 h.1.symm)).2
  · -- the closing quote is escaped, and read as a part of the value
    rw [readBody_escape (d := singleQuote) rfl, map_cons_eq_some_iff] at h
    obtain ⟨u, -, h⟩ := h
    exact absurd (cons.inj h).1 (by decide)

theorem readBody_ne_of_paren {x : Char} {s s' : List Char} (hx : x ≠ '(') :
    readBody (p ++ '(' :: s') ≠ some (p ++ x :: s, r) := by
  have hh : ∀ j u, replicate j backslash ++ x :: s ≠ '(' :: u := by
    intro j u h
    rcases replicate_append_cons j x s with ⟨-, heq⟩ | ⟨i, -, heq⟩
    · exact hx (cons.inj (heq.symm.trans h)).1
    · exact absurd (cons.inj (heq.symm.trans h)).1 (by decide)
  have hparen : readBody ('(' :: s') = _ := readBody_cons (by decide) (by decide)
  intro h
  rcases readBody_append hquote 0 h with ⟨j, h, -⟩ | ⟨j, h⟩
  · rw [hparen, map_cons_eq_some_iff] at h
    obtain ⟨u, -, h⟩ := h
    exact hh j u h
  · rw [readBody_slash (by decide), hparen, map_cons_eq_some_iff] at h
    obtain ⟨u, hr, h⟩ := h
    obtain ⟨u', -, rfl⟩ := map_cons_eq_some_iff.1 hr
    exact hh j u' (cons.inj h).2

/-- A doubled quote ends the literal. -/
theorem length_le_of_readBody {u : List Char}
    (h : readBody (p ++ singleQuote :: singleQuote :: rest) = some (u, r)) :
    u.length ≤ p.length := by
  induction p using bodyInduction generalizing u with
  | nil =>
    rw [nil_append, readBody_quote, some.injEq, Prod.mk.injEq] at h
    rw [← h.1]
  | quote t => exact absurd mem_cons_self hquote
  | last =>
    rw [cons_append, nil_append, readBody_escape (d := singleQuote) rfl, readBody_quote] at h
    obtain ⟨rfl, -⟩ := Prod.mk.inj (some.inj h)
    exact Nat.le_refl 1
  | escape e d t he ih =>
    rw [cons_append, cons_append, readBody_escape he, map_cons_eq_some_iff] at h
    obtain ⟨u', hr, rfl⟩ := h
    have hl := ih (fun hm => hquote (by simp [hm])) hr
    simp only [length_cons]
    omega
  | slash e t he ih =>
    rw [cons_append, cons_append, readBody_slash he, map_cons_eq_some_iff] at h
    obtain ⟨u', hr, rfl⟩ := h
    have hl := ih (fun hm => hquote (mem_cons_of_mem _ hm)) hr
    simp only [length_cons] at hl ⊢
    omega
  | char c t hc hs ih =>
    rw [cons_append, readBody_cons hc hs, map_cons_eq_some_iff] at h
    obtain ⟨u', hr, rfl⟩ := h
    have hl := ih (fun hm => hquote (mem_cons_of_mem _ hm)) hr
    simp only [length_cons]
    omega

end

end Behind

/-! ## Literals after passes -/

theorem flatMap_doubled_of_notMem {v : List Char} (h : singleQuote ∉ v) :
    v.flatMap doubled = v := by
  induction v with
  | nil => rfl
  | cons c v ih =>
    rw [mem_cons, not_or] at h
    rw [flatMap_cons, ih h.2, doubled, if_neg (Ne.symm h.1)]
    rfl

section Passes

variable {α : Type} {passes : List (Pass Char α)} (hquote : ∀ p ∈ passes, p.Stops singleQuote)
  (hparen : ∀ p ∈ passes, p.Stops '(') (hrender : ∀ p ∈ passes, ∀ a, ∃ r, p.render a = '(' :: r)

include hquote hparen hrender

/-- A value with a quote is not read as it is, whatever passes make of it. -/
theorem readBody_ne_of_quote {a b rest r : List Char} (hn : singleQuote ∉ a) :
    readBody (runPasses passes ((a ++ singleQuote :: b).flatMap doubled) ++ singleQuote :: rest) ≠
      some (a ++ singleQuote :: b, r) := by
  have hd : (a ++ singleQuote :: b).flatMap doubled =
      a ++ singleQuote :: singleQuote :: b.flatMap doubled := by
    rw [flatMap_append, flatMap_doubled_of_notMem hn, flatMap_cons, doubled, if_pos rfl]
    rfl
  have hr : runPasses passes (a ++ singleQuote :: singleQuote :: b.flatMap doubled) =
      runPasses passes a ++ singleQuote :: singleQuote :: runPasses passes (b.flatMap doubled) := by
    have he := runPasses_append_stop hquote [] (b.flatMap doubled)
    rw [runPasses_of_not_occurs fun p _ => Pattern.not_occurs_nil] at he
    rw [runPasses_append_stop hquote, ← nil_append (singleQuote :: b.flatMap doubled), he]
    rfl
  intro h
  rw [hd, hr, append_assoc] at h
  rcases runPasses_eq_or_diverges hparen hrender a with ⟨-, heq⟩ | ⟨-, hdi⟩
  · rw [heq] at h
    have hl := length_le_of_readBody hn h
    simp only [length_append, length_cons] at hl
    omega
  · obtain ⟨p, x, s, s', rfl, heq, hx⟩ := hdi
    rw [heq, append_assoc, append_assoc] at h
    exact readBody_ne_of_paren (fun hp => hn (mem_append_left _ hp)) hx h

theorem plain_of_readBody_runPasses {v rest r : List Char}
    (h : readBody (runPasses passes (v.flatMap doubled) ++ singleQuote :: rest) = some (v, r)) :
    plain v = true ∧ ∀ p ∈ passes, ¬ p.Occurs v := by
  by_cases hm : singleQuote ∈ v
  · obtain ⟨a, b, rfl, hno⟩ := eq_append_cons_of_mem hm
    exact absurd h (readBody_ne_of_quote hquote hparen hrender hno)
  rw [flatMap_doubled_of_notMem hm] at h
  rcases runPasses_eq_or_diverges hparen hrender v with ⟨hn, heq⟩ | ⟨-, hd⟩
  · rw [heq] at h
    exact ⟨plain_of_readBody hm h, hn⟩
  · obtain ⟨p, x, s, s', rfl, heq, hx⟩ := hd
    rw [heq, append_assoc] at h
    have hno : singleQuote ∉ p := fun hp => hm (mem_append_left _ hp)
    exact absurd h (readBody_ne_of_paren hno hx)

/-- A literal is read as its value, after passes over the query, iff the value is plain and has no
match of the passes. -/
theorem expectValue_runPasses_iff {v rest r : List Char} :
    expectValue v (singleQuote :: (runPasses passes (v.flatMap doubled) ++ singleQuote :: rest)) =
      some r ↔ (plain v = true ∧ ∀ p ∈ passes, ¬ p.Occurs v) ∧ r = rest := by
  have hl : readLiteral
      (singleQuote :: (runPasses passes (v.flatMap doubled) ++ singleQuote :: rest)) =
      readBody (runPasses passes (v.flatMap doubled) ++ singleQuote :: rest) := by
    rw [readLiteral]
    exact if_pos rfl
  have hg : plain v = true → (∀ p ∈ passes, ¬ p.Occurs v) →
      readBody (runPasses passes (v.flatMap doubled) ++ singleQuote :: rest) = some (v, rest) := by
    intro hp hn
    rw [flatMap_doubled_of_notMem (notMem_of_plain v hp), runPasses_of_not_occurs hn,
      readBody_of_plain rest v hp]
  rw [expectValue, hl]
  constructor
  · intro h
    split at h
    · rename_i u r' hr
      split_ifs at h with hu
      rw [hu] at hr
      obtain ⟨hp, hn⟩ := plain_of_readBody_runPasses hquote hparen hrender hr
      rw [hg hp hn] at hr
      cases hr
      cases h
      exact ⟨⟨hp, hn⟩, rfl⟩
    · cases h
  · rintro ⟨⟨hp, hn⟩, rfl⟩
    rw [hg hp hn]
    exact if_pos rfl

end Passes

end Bqemulator
