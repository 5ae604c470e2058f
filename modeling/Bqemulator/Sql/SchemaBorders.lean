import Bqemulator.Sql.InformationSchema

/-!
# Borders of references

No pattern of the information schema matches across a border between two texts that are separated:
no word goes on across it, and there is no dot on either side. -/

namespace Bqemulator

open List Option

open Text (singleQuote)

def isWord (c : Char) : Bool := isNameChar c || c = backtick

/-- A symbol that no match goes over. -/
def isStop (c : Char) : Bool := !isWord c && !isBlank c && c ≠ '.'

variable (t : List Char)

/-- The first character that is no blank. -/
def firstMark : Option Char := t.find? fun c => !isBlank c

def lastMark : Option Char := t.reverse.find? fun c => !isBlank c

/-- A text whose end no match goes over. -/
def Closed : Prop := lastMark t ≠ some '.'

/-- **A text that begins with no word and no dot.** -/
def Quiet : Prop := (∀ c ∈ t.head?, isWord c = false) ∧ firstMark t ≠ some '.'

theorem Closed.of_suffix {s t : List Char} (h : Closed t) (hsu : s <:+ t) : Closed s := by
  obtain ⟨l, rfl⟩ := hsu
  intro hs
  apply h
  rw [lastMark] at hs ⊢
  rw [reverse_append, find?_append, hs, some_or]

variable {c : Char}

theorem isNameChar_of_isWord (h : isWord c = false) : isNameChar c = false := by
  rw [isWord, Bool.or_eq_false_iff] at h
  exact h.1

theorem firstMark_eq_head? : firstMark t = (t.dropWhile isBlank).head? := by
  rw [firstMark, find?_eq_head?_dropWhile_not]
  simp

theorem readGap_of_dot {t rest : List Char} (h : t.dropWhile isBlank = '.' :: rest) :
    readGap t = some (rest.dropWhile isBlank) := by
  rw [readGap, h]
  exact if_pos rfl

theorem readGap_of_firstMark {t : List Char} (h : firstMark t ≠ some '.') : readGap t = none := by
  rw [firstMark_eq_head?] at h
  rw [readGap]
  cases hd : t.dropWhile isBlank with
  | nil => rfl
  | cons =>
    rw [hd, head?_cons, ne_eq, some.injEq] at h
    exact if_neg h

theorem not_closed_of_dot {s rest : List Char} (h : s.dropWhile isBlank = '.' :: rest)
    (hr : rest.dropWhile isBlank = []) : ¬ Closed s := by
  rw [Closed, not_not]
  have hs : s = s.takeWhile isBlank ++ '.' :: rest := by
    rw [← h, takeWhile_append_dropWhile]
  have hn : rest.reverse.find? (fun c => !isBlank c) = none := by
    rw [find?_eq_none]
    intro c hc
    simp [dropWhile_eq_nil_iff.1 hr c (mem_reverse.1 hc)]
  rw [hs, lastMark, reverse_append, reverse_cons, append_assoc, find?_append, hn]
  rfl

/-! ## Readers at a border -/

section Border

variable {s b : List Char} (hb : Quiet b)

include hb

theorem skipTick_append : skipTick (s ++ b) = skipTick s ++ b := by
  cases s with
  | nil =>
    cases b with
    | nil => rfl
    | cons c b =>
      have hc := hb.1 c rfl
      rw [isWord, Bool.or_eq_false_iff, decide_eq_false_iff_not] at hc
      rw [nil_append, skipTick.eq_2, if_neg hc.2]
      rfl
  | cons c s =>
    rw [cons_append, skipTick, skipTick]
    split_ifs
    · rfl
    · rfl

theorem dropWhile_isNameChar_of_quiet :
    b.dropWhile isNameChar = b ∧ b.takeWhile isNameChar = [] := by
  cases b with
  | nil => exact ⟨rfl, rfl⟩
  | cons c b =>
    have hc := isNameChar_of_isWord (hb.1 c rfl)
    exact ⟨dropWhile_cons_of_neg (by simp [hc]), takeWhile_cons_of_neg (by simp [hc])⟩

theorem readName_append : readName (s ++ b) = (readName s).map fun m => (m.1, m.2 ++ b) := by
  obtain ⟨hd, ht⟩ := dropWhile_isNameChar_of_quiet hb
  have hn : (s ++ b).takeWhile isNameChar = s.takeWhile isNameChar := by
    rw [takeWhile_append, ht, append_nil]
    split_ifs with ha
    · have hp := List.takeWhile_prefix isNameChar (l := s)
      exact (hp.eq_of_length ha).symm
    · rfl
  have hr : (s ++ b).dropWhile isNameChar = s.dropWhile isNameChar ++ b := by
    rw [dropWhile_append, hd]
    split_ifs with ha
    · rw [isEmpty_iff.1 ha, nil_append]
    · rfl
  rw [readName, readName, hn, hr]
  split_ifs
  · rfl
  · rfl

/-- A gap is read on one side of a border. -/
theorem readGap_append (hs : Closed s ∨ ∀ c ∈ b.head?, isBlank c = false) :
    readGap (s ++ b) = (readGap s).map (· ++ b) := by
  cases hd : s.dropWhile isBlank with
  | nil =>
    -- the text is blank, and the other one has no dot
    have hm : firstMark (s ++ b) ≠ some '.' := by
      rw [firstMark_eq_head?, dropWhile_append, hd, isEmpty_nil, if_pos rfl, ← firstMark_eq_head?]
      exact hb.2
    have hm' : firstMark s ≠ some '.' := by
      rw [firstMark_eq_head?, hd]
      nofun
    rw [readGap_of_firstMark hm, readGap_of_firstMark hm']
    rfl
  | cons c r =>
    have hap : (s ++ b).dropWhile isBlank = c :: (r ++ b) := by
      rw [dropWhile_append, hd, isEmpty_cons, if_neg Bool.false_ne_true]
      rfl
    by_cases hc : c = '.'
    · rw [hc] at hd hap
      rw [readGap_of_dot hd, readGap_of_dot hap, map_some, dropWhile_append]
      split_ifs with ha
      · have hr := isEmpty_iff.1 ha
        rcases hs with hs | hs
        · exact absurd hs (not_closed_of_dot hd hr)
        · rw [hr, nil_append]
          cases b with
          | nil => rfl
          | cons d b => rw [dropWhile_cons_of_neg (by simp [hs d rfl])]
      · rfl
    · have hm : firstMark (s ++ b) ≠ some '.' := by
        rw [firstMark_eq_head?, hap]
        simpa using hc
      have hm' : firstMark s ≠ some '.' := by
        rw [firstMark_eq_head?, hd]
        simpa using hc
      rw [readGap_of_firstMark hm, readGap_of_firstMark hm']
      rfl

end Border

theorem isNameChar_of_toLower {k : Char} (hk : isNameChar k.toLower = true)
    (h : c.toLower = k.toLower) : isNameChar c = true := by
  by_cases hu : c.isUpper = true
  · simp [isNameChar, Char.isAlphanum, Char.isAlpha, hu]
  have hsa : c.toLower = c := by
    unfold Char.toLower
    unfold Char.isUpper at hu
    split
    · rename_i hc
      exact absurd (by simpa using hc) hu
    · rfl
  rw [← hsa, h, hk]

theorem isNameChar_schema : ∀ k ∈ "INFORMATION_SCHEMA".toList, isNameChar k.toLower = true :=
  List.all_eq_true.1 (by decide)

theorem isNameChar_view (v : SchemaView) : ∀ k ∈ v.name.toList, isNameChar k.toLower = true := by
  refine List.all_eq_true.1 ?_
  cases v <;> decide

theorem readWord_append_cons {b : List Char} (hc : isNameChar c = false) :
    ∀ {word : List Char}, (∀ k ∈ word, isNameChar k.toLower = true) →
    ∀ s, readWord word (s ++ c :: b) = (readWord word s).map (· ++ c :: b)
  | [], _, s => by rw [readWord, readWord, map_some]
  | k :: word, hw, [] => by
    have hn : c.toLower ≠ k.toLower := by
      intro h
      rw [isNameChar_of_toLower (hw k mem_cons_self) h] at hc
      cases hc
    show readWord (k :: word) (c :: b) = none
    rw [readWord, if_neg hn]
  | k :: word, hw, d :: s => by
    rw [cons_append, readWord, readWord]
    split_ifs
    · exact readWord_append_cons hc (fun k' hk' => hw k' (mem_cons_of_mem k hk')) s
    · rfl

theorem bind_shift {σ τ : Type} {x x' : Option σ} {g : σ → Option τ} {s : σ → σ}
    {s' : τ → τ} (hx : x' = x.map s)
    (hg : ∀ m, x = some m → g (s m) = (g m).map s') :
    x'.bind g = (x.bind g).map s' := by
  subst hx
  cases x with
  | none => rfl
  | some m => exact hg m rfl

section Border

variable {b : List Char} (hb : Quiet b)

include hb

/-- A word is read on one side of a border. -/
theorem readWord_append {word : List Char} (hw : ∀ k ∈ word, isNameChar k.toLower = true)
    (s : List Char) : readWord word (s ++ b) = (readWord word s).map (· ++ b) := by
  cases b with
  | nil => simp
  | cons c b => exact readWord_append_cons (isNameChar_of_isWord (hb.1 c rfl)) hw s

variable {s : List Char} (hs : Closed s ∨ ∀ c ∈ b.head?, isBlank c = false)

include hs

theorem readView_append (v : SchemaView) :
    readView v (s ++ b) = (readView v s).map (· ++ b) := by
  refine bind_shift (readWord_append hb isNameChar_schema s) fun s₁ hw => ?_
  have hs₁ := hs.imp_left fun h => h.of_suffix (suffix_of_readWord hw)
  refine bind_shift (readGap_append hb hs₁) fun s₂ _ => ?_
  refine bind_shift (readWord_append hb (isNameChar_view v) s₂) fun s₃ _ => ?_
  rw [skipTick_append hb, map_some]

theorem readQualifier_append :
    readQualifier (s ++ b) = (readQualifier s).map fun m => (m.1, m.2 ++ b) := by
  rw [readQualifier, skipTick_append hb]
  refine bind_shift (readName_append hb) fun m hn => ?_
  have hsu : skipTick m.2 <:+ s := by
    rw [readName] at hn
    split_ifs at hn
    cases hn
    exact (skipTick_suffix _).trans ((dropWhile_suffix _).trans (skipTick_suffix s))
  have hs₁ := hs.imp_left fun h => h.of_suffix hsu
  dsimp only
  rw [skipTick_append hb]
  exact bind_shift (readGap_append hb hs₁) fun _ _ => rfl

/-- A reference is read on one side of a border. -/
theorem readReference_append (v : SchemaView) (f : Form) :
    readReference v f (s ++ b) =
      (readReference v f s).map fun m => (m.1, m.2 ++ b) := by
  have hn : ∀ {s m}, readQualifier s = some m → (Closed s ∨ ∀ c ∈ b.head?, isBlank c = false) →
      Closed m.2 ∨ ∀ c ∈ b.head?, isBlank c = false :=
    fun hq => Or.imp_left fun h => h.of_suffix (suffix_of_readQualifier hq)
  cases f with
  | projectDs =>
    refine bind_shift (readQualifier_append hb hs) fun m hq => ?_
    have hs₁ := hn hq hs
    refine bind_shift (readQualifier_append hb hs₁) fun m' hq' => ?_
    exact bind_shift (readView_append hb (hn hq' hs₁) v) fun _ _ => rfl
  | ds =>
    refine bind_shift (readQualifier_append hb hs) fun m hq => ?_
    exact bind_shift (readView_append hb (hn hq hs) v) fun _ _ => rfl
  | bare => exact bind_shift (readView_append hb hs v) fun _ _ => rfl

end Border

/-! ## Separated texts -/

def endsInWord : Bool := t.reverse.head?.any isWord

def startsWithWord : Bool := t.head?.any isWord

/-- **A border between two texts**: no dot is on either side, and no word goes on across it. -/
structure Separated (a b : List Char) : Prop where
  closed : Closed a
  mark : firstMark b ≠ some '.'
  word : ¬ (endsInWord a = true ∧ startsWithWord b = true)

section Passes

variable {src : CatalogSource} {p : String} {stage : SchemaView × Form} {a b : List Char}

theorem quiet_cons (hw : isWord c = false) (hdo : c ≠ '.')
    (hm : isBlank c = true → firstMark b ≠ some '.') : Quiet (c :: b) := by
  refine ⟨fun d hd => ?_, ?_⟩
  · rw [head?_cons, mem_some_iff] at hd
    rw [← hd, hw]
  rw [firstMark]
  cases hbl : isBlank c with
  | true =>
    rw [find?_cons_of_neg (by simp [hbl])]
    exact hm hbl
  | false =>
    rw [find?_cons_of_pos (by simp [hbl])]
    simpa using hdo

/-- No match goes over a stop. -/
theorem stops_of_isStop (h : isStop c = true) :
    (schemaPass src p stage).Stops c := by
  simp only [isStop, Bool.and_eq_true, Bool.not_eq_true', decide_eq_true_eq] at h
  obtain ⟨⟨hw, hbl⟩, hdo⟩ := h
  intro s t
  have hq : Quiet (c :: t) := quiet_cons hw hdo fun hc => by
    rw [hbl] at hc
    cases hc
  apply readReference_append hq (Or.inr _)
  intro d hd
  rw [head?_cons, mem_some_iff] at hd
  rw [← hd, hbl]

theorem read_of_not_isWord (h : isWord c = false) (t : List Char) :
    (schemaPass src p stage).read (c :: t) = none := by
  have hn := isNameChar_of_isWord h
  have ht : c ≠ backtick := by
    rintro rfl
    exact absurd h (by decide)
  have hq : readQualifier (c :: t) = none := by
    rw [readQualifier, skipTick, if_neg ht, readName, takeWhile_cons_of_neg (by simp [hn]),
      if_pos rfl]
    rfl
  have hv : readView stage.1 (c :: t) = none := by
    have hne : c.toLower ≠ 'I'.toLower := by
      intro heq
      rw [isNameChar_of_toLower (by decide) heq] at hn
      cases hn
    rw [readView, show "INFORMATION_SCHEMA".toList = 'I' :: "NFORMATION_SCHEMA".toList from rfl,
      readWord, if_neg hne]
    rfl
  obtain ⟨v, f⟩ := stage
  show readReference v f (c :: t) = none
  cases f with
  | projectDs | ds => rw [readReference, hq]; rfl
  | bare => rw [readReference, hv]; rfl

/-- No match goes across a border. -/
theorem apart_of_separated (h : Separated a b) : (schemaPass src p stage).Apart a b := by
  intro s hn hsu
  have hc := h.closed.of_suffix hsu
  obtain ⟨s, c, rfl⟩ := (eq_nil_or_concat s).resolve_left hn
  rw [concat_eq_append] at *
  cases hw : isWord c with
  | true =>
    -- the other text begins with no word
    have he : endsInWord a = true := by
      obtain ⟨l, rfl⟩ := hsu
      simp [endsInWord, hw]
    have hq : Quiet b := by
      refine ⟨fun d hd => ?_, h.mark⟩
      have hst := fun hst => h.word ⟨he, hst⟩
      rw [startsWithWord, Option.mem_def.1 hd] at hst
      simpa using hst
    exact readReference_append hq (.inl hc) stage.1 stage.2
  | false =>
    -- the last character belongs to the other text as well
    have hdo : c ≠ '.' := by
      rintro rfl
      apply hc
      rw [lastMark, reverse_append, reverse_singleton, singleton_append,
        find?_cons_of_pos (by decide)]
    have hbe : Closed s ∨ isBlank c = false := by
      cases hbl : isBlank c with
      | false => exact .inr rfl
      | true =>
        refine .inl fun hs => hc ?_
        rw [lastMark, reverse_append, reverse_singleton, singleton_append,
          find?_cons_of_neg (by simp [hbl])]
        exact hs
    have hr : ∀ b, firstMark b ≠ some '.' →
        (schemaPass src p stage).read (s ++ c :: b) =
          ((schemaPass src p stage).read s).map fun m => (m.1, m.2 ++ c :: b) := by
      intro b hm
      apply readReference_append (quiet_cons hw hdo fun _ => hm)
      exact hbe.imp_right fun hbl d hd => by
        rw [head?_cons, Option.mem_some_iff] at hd
        rw [← hd, hbl]
    rw [append_assoc, singleton_append, hr b h.mark, hr [] nofun, Option.map_map]
    simp [Function.comp_def]

end Passes

/-! ## Texts in a row -/

theorem emptyRowSet_eq (v : SchemaView) : ∃ t, emptyRowSet v = parens t := by
  cases v <;> exact ⟨_, rfl⟩

/-- A row set begins with a parenthesis. -/
theorem rowSet_open (v : SchemaView) (rows : List (List Cell)) :
    ∃ r, rowSet v rows = '(' :: r := by
  rw [rowSet, rowSetCells]
  split_ifs
  · obtain ⟨t, ht⟩ := emptyRowSet_eq v
    rw [flatMap_singleton, Cell.render, ht]
    exact ⟨_, rfl⟩
  · exact ⟨_, rfl⟩

theorem rowSet_close (v : SchemaView) (rows : List (List Cell)) :
    ∃ r, rowSet v rows = r ++ [')'] := by
  rw [rowSet, rowSetCells]
  split_ifs
  · obtain ⟨t, ht⟩ := emptyRowSet_eq v
    rw [flatMap_singleton, Cell.render, ht]
    exact ⟨'(' :: t, rfl⟩
  · rw [← cons_append, flatMap_append, flatMap_singleton, Cell.render, rowSetClose,
      ← cons_append, ← append_assoc]
    exact ⟨_, rfl⟩

section Rows

variable {src : CatalogSource} {p : String}

theorem find?_render {q : Char → Bool} (hq : q '(' = true) (s : SchemaView × Form)
    (scope : SchemaScope) : ((schemaPass src p s).render scope).find? q = some '(' := by
  obtain ⟨r, hr⟩ := rowSet_open s.1 (rowsOf src p s.1 scope)
  show (rowSet s.1 (rowsOf src p s.1 scope)).find? q = some '('
  rw [hr, find?_cons_of_pos hq]

theorem find?_reverse_render {q : Char → Bool} (hq : q ')' = true) (stage : SchemaView × Form)
    (scope : SchemaScope) :
    ((schemaPass src p stage).render scope).reverse.find? q = some ')' := by
  obtain ⟨r, hr⟩ := rowSet_close stage.1 (rowsOf src p stage.1 scope)
  show (rowSet stage.1 (rowsOf src p stage.1 scope)).reverse.find? q = some ')'
  rw [hr, reverse_append, reverse_singleton, singleton_append, find?_cons_of_pos hq]

theorem head?_eq_find? : t.head? = t.find? fun _ => true := by
  cases t <;> rfl

variable {stage : SchemaView × Form}

/-- A border stays one after a substitution. -/
theorem Separated.substitute {a b : List Char} (h : Separated a b) :
    Separated ((schemaPass src p stage).substitute a)
      ((schemaPass src p stage).substitute b) where
  closed := by
    rcases Pass.find?_reverse_substitute
      (find?_reverse_render (q := fun c => !isBlank c) rfl stage) a with hl | hl
    · rw [Closed, lastMark, hl]
      exact h.closed
    · rw [Closed, lastMark, hl]
      decide
  mark := by
    rcases Pass.find?_substitute (find?_render (q := fun c => !isBlank c) rfl stage) b with
      hf | hf
    · rw [firstMark, hf]
      exact h.mark
    · rw [firstMark, hf]
      decide
  word := by
    rintro ⟨he, hst⟩
    rw [endsInWord, head?_eq_find?] at he
    rw [startsWithWord, head?_eq_find?] at hst
    rcases Pass.find?_reverse_substitute
      (find?_reverse_render (q := fun _ => true) rfl stage) a with
      hl | hl
    · rcases Pass.find?_substitute (find?_render (q := fun _ => true) rfl stage) b with
        hf | hf
      · rw [hl, ← head?_eq_find?] at he
        rw [hf, ← head?_eq_find?] at hst
        exact h.word ⟨he, hst⟩
      · rw [hf] at hst
        exact absurd hst (by decide)
    · rw [hl] at he
      exact absurd he (by decide)

end Rows

/-- Texts in a row, with borders between them. -/
def AllSeparated : List (List Char) → Prop
  | [] => True
  | t :: ts => Separated t ts.flatten ∧ AllSeparated ts

section Flatten

variable {src : CatalogSource} {p : String} {stage : SchemaView × Form}

/-- A pass goes through separated texts one by one. -/
theorem substitute_flatten : ∀ {ts : List (List Char)}, AllSeparated ts →
    (schemaPass src p stage).substitute ts.flatten =
      (ts.map (schemaPass src p stage).substitute).flatten
  | [], _ => rfl
  | t :: ts, h => by
    rw [flatten_cons, Pass.substitute_append (apart_of_separated h.1), substitute_flatten h.2]
    rfl

theorem AllSeparated.substitute : ∀ {ts : List (List Char)}, AllSeparated ts →
    AllSeparated (ts.map (schemaPass src p stage).substitute)
  | [], _ => trivial
  | t :: ts, h => by
    refine ⟨?_, AllSeparated.substitute h.2⟩
    rw [← substitute_flatten h.2]
    exact h.1.substitute

/-- Separated texts are expanded one by one. -/
theorem runPasses_flatten : ∀ {stages : List (SchemaView × Form)} {ts : List (List Char)},
    AllSeparated ts → runPasses (stages.map (schemaPass src p)) ts.flatten =
      (ts.map (runPasses (stages.map (schemaPass src p)))).flatten
  | [], ts, _ => by
    rw [List.map_nil, show runPasses ([] : List (Pass Char SchemaScope)) = id from rfl, List.map_id]
    rfl
  | stage :: stages, ts, h => by
    rw [List.map_cons, runPasses_cons, substitute_flatten h, runPasses_flatten h.substitute,
      List.map_map]
    rfl

end Flatten

end Bqemulator
