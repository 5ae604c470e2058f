import Bqemulator.Scripting.Parser

/-!
# The spans of a script

Every loop of the parser takes a token in every round, so that fuel for the tokens suffices; and the
statements of a script cover its tokens, each token once.
-/

namespace Bqemulator

open Consumer

/-! ## Progress -/

variable {parseType : Span → Except String Unit}
  {statements statements' : List String → BlockParser (List Parsed)}
  {n : Nat}

theorem advances_expect (p : Token → Bool) (e : Option Token → String) :
    Advances (expect p e) :=
  Advances.scan fun ts x h => by
    cases ts with
    | nil => cases h
    | cons =>
      simp only [List.head?_cons] at h
      split at h
      · cases h
        exact Nat.one_pos
      · cases h

/-- A statement of SQL takes a token. -/
theorem advances_parseSqlStatement : Advances parseSqlStatement :=
  Advances.scan fun ts x h => by
    cases h
    exact Nat.succ_pos _

variable {α : Type} {ts rest : List Token}

theorem advances_keyword {k : String} {f : Token → LeafParser α} :
    Advances (lift (expectKeyword k >>= f)) :=
  Advances.lift (advances_expect _ _).bind

theorem advances_advance {f : Option Token → LeafParser α} : Advances (lift (advance >>= f)) :=
  Advances.lift (Advances.bind (.scan fun ts x h => by
    cases h
    exact Nat.one_pos))

theorem advances_block {k : String} {f : Token → BlockParser α} :
    Advances (lift (expectKeyword k) >>= f) :=
  (Advances.lift (advances_expect _ _)).bind

/-- The statement of a keyword takes a token. -/
theorem advances_handler (k : String) (ts : List Token) :
    Advances (handler parseType statements k ts) := by
  have hs := Advances.lift advances_parseSqlStatement
  unfold handler
  split
  case h_11 => split <;> [exact hs; exact advances_block]
  case h_16 => split <;> [exact advances_keyword; exact hs]
  all_goals first
    | exact hs
    | exact advances_keyword
    | exact advances_block
    | exact advances_advance

/-- Every statement takes a token. -/
theorem advances_parseStatement : Advances (parseStatement parseType statements) := by
  refine .choose fun ts => ?_
  have hs := Advances.lift advances_parseSqlStatement
  split
  · exact hs.bind
  split
  · exact (Advances.lift (Advances.scan fun ts x h => by cases h; exact Nat.one_pos)).bind
  · split
    · exact (advances_handler _ _).bind
    · exact hs.bind

/-! ## Fuel -/

section Fuel

variable (h : ∀ stop, Settled n (statements stop) (statements' stop))

include h

/-- A body needs the fuel of its statements. -/
theorem settled_parseBody (o : String) :
    Settled n (parseBody statements o) (parseBody statements' o) :=
  (h _).bind fun _ => (Settled.lift _).bind fun _ => Settled.pure _

theorem settled_parseIf : Settled (n + 1) (parseIf statements) (parseIf statements') := by
  refine .bind_of_advances (.lift (advances_expect _ _)) (.lift _) fun _ => ?_
  refine .bind (.sepBy (.bind (.lift _) fun _ => .bind (.lift _) fun _ =>
    (h _).bind fun _ => .pure _)) fun branches => .bind (.lift _) fun isElse => ?_
  split
  · exact (settled_parseBody h _).bind fun _ => .pure _
  · exact (Settled.lift _).bind fun _ => Settled.pure _

theorem settled_parseWhile : Settled (n + 1) (parseWhile statements) (parseWhile statements') :=
  .bind_of_advances (.lift (advances_expect _ _)) (.lift _) fun _ =>
    (Settled.lift _).bind fun _ => (Settled.lift _).bind fun _ =>
      (settled_parseBody h _).bind fun _ => .pure _

theorem settled_parseLoop : Settled (n + 1) (parseLoop statements) (parseLoop statements') :=
  .bind_of_advances (.lift (advances_expect _ _)) (.lift _) fun _ =>
    (settled_parseBody h _).bind fun _ => .pure _

theorem settled_parseFor : Settled (n + 1) (parseFor statements) (parseFor statements') :=
  .bind_of_advances (.lift (advances_expect _ _)) (.lift _) fun _ =>
    (Settled.lift _).bind fun _ => (Settled.lift _).bind fun _ => (Settled.lift _).bind fun _ =>
      (Settled.lift _).bind fun _ => (settled_parseBody h _).bind fun _ => Settled.pure _

theorem settled_parseHandler : Settled n (parseHandler statements) (parseHandler statements') := by
  refine (Settled.lift _).bind fun handled => ?_
  split
  · exact (Settled.lift _).bind fun _ => (h _).bind fun _ => Settled.pure _
  · exact .pure _

theorem settled_parseBegin : Settled (n + 1) (parseBegin statements) (parseBegin statements') :=
  .bind_of_advances (.lift (advances_expect _ _)) (.lift _) fun _ =>
    (h _).bind fun _ => (settled_parseHandler h).bind fun _ => (Settled.lift _).bind fun _ =>
      (Settled.lift _).bind fun _ => Settled.pure _

/-- The statement of a keyword needs one level more than those inside it. -/
theorem settled_handler (k : String) (ts : List Token) :
    Settled (n + 1) (handler parseType statements k ts) (handler parseType statements' k ts) := by
  unfold handler
  split
  case h_11 => split <;> [exact Settled.lift _; exact settled_parseBegin h]
  all_goals first
    | exact .lift _
    | exact settled_parseIf h
    | exact settled_parseWhile h
    | exact settled_parseLoop h
    | exact settled_parseFor h

theorem settled_parseStatement :
    Settled (n + 1) (parseStatement parseType statements)
      (parseStatement parseType statements') := by
  refine .choose fun ts => ?_
  split
  · exact (Settled.lift _).bind fun _ => Settled.pure _
  split
  · exact (Settled.lift _).bind fun _ => Settled.pure _
  · split
    · exact (settled_handler h _ _).bind fun _ => .pure _
    · exact (Settled.lift _).bind fun _ => Settled.pure _

end Fuel

/-- With enough fuel, more fuel changes nothing. -/
theorem settled_parseStatements (n m : Nat) (hn : n ≤ m) (stop : List String) :
    Settled n (parseStatements parseType (n + 1) stop)
      (parseStatements parseType (m + 1) stop) := by
  induction n generalizing m stop with
  | zero =>
    intro ts ht
    obtain rfl := List.length_eq_zero_iff.1 (Nat.le_zero.1 ht)
    exact ⟨rfl, nofun⟩
  | succ n ih =>
    obtain ⟨m, rfl⟩ := Nat.exists_eq_add_of_lt hn
    refine .choose fun ts => ?_
    split
    · exact .pure _
    split
    · exact .pure _
    · exact .bind_of_advances advances_parseStatement
        (settled_parseStatement fun stop => ih _ (by omega) stop) fun _ =>
          (ih _ (by omega) stop).bind fun _ => .pure _

/-! ## The text of statements of SQL -/

/-- A parser that returns a statement of SQL has taken its text, and the semicolon behind it if
there is one. -/
def KeepsSqlText (c : BlockParser Parsed) : Prop :=
  ∀ ts text rest, c.run ts = .ok (.sql text, rest) →
    ts = text ++ rest ∨ ts = text ++ pct ";" :: rest

/-- The statements that are not passed on as SQL. -/
def Parsed.IsScripting (stmt : Parsed) : Prop := ∀ text, stmt ≠ .sql text

theorem KeepsSqlText.of_returns {c : BlockParser Parsed} (h : Returns Parsed.IsScripting c) :
    KeepsSqlText c :=
  fun _ text _ hrun => absurd rfl (h _ _ _ hrun text)

/-- A statement of SQL ends at the end of the script or at a semicolon. -/
theorem drop_sqlLength (depth : Int) (ts : List Token) :
    ts.drop (sqlLength depth ts) = [] ∨
      ∃ rest, ts.drop (sqlLength depth ts) = pct ";" :: rest := by
  induction ts generalizing depth with
  | nil => exact .inl rfl
  | cons t ts ih =>
    rw [sqlLength]
    split
    · exact ih _
    split
    · exact ih _
    split
    · next h =>
      simp only [Bool.and_eq_true, decide_eq_true_eq] at h
      exact .inr ⟨ts, by rw [h.1]; rfl⟩
    · exact ih _

/-- The text of a statement of SQL is what it takes. -/
theorem keepsSqlText_parseSqlStatement : KeepsSqlText (lift parseSqlStatement) := by
  intro ts text rest hrun
  rw [run_lift_ok_iff, parseSqlStatement, run_scan] at hrun
  obtain ⟨rfl, rfl⟩ : ts.take (sqlLength 0 ts) = text ∧ ts.drop (sqlLength 0 ts + 1) = rest := by
    simpa [Except.map] using hrun
  have hts := List.take_append_drop (sqlLength 0 ts) ts
  rw [← List.drop_drop]
  rcases drop_sqlLength 0 ts with hend | ⟨rest, hsemicolon⟩
  · rw [hend] at hts ⊢
    exact .inl hts.symm
  · rw [hsemicolon] at hts ⊢
    exact .inr hts.symm

/-- The statements of keywords are no statements of SQL. -/
theorem keepsSqlText_handler (k : String) (ts : List Token) :
    KeepsSqlText (handler parseType statements k ts) := by
  unfold handler
  split
  case' h_11 => split
  case' h_16 => split
  all_goals first
    | exact keepsSqlText_parseSqlStatement
    | refine .of_returns (.lift ?_)
    | refine .of_returns ?_
  -- the other parsers end with a statement of another kind
  all_goals
    simp only [parseDeclare, parseSet, parseCall, parseExecuteImmediate, parseReturn, parseRaise,
      parseSignal, parseCreateRoutine, parseFunctionRest, parseProcedureRest, parseIf, parseWhile,
      parseLoop, parseFor, parseBegin]
    repeat first
      | exact Returns.pure fun _ h => by cases h
      | exact Returns.fail _
      | refine Returns.bind fun _ => ?_
      | split

/-- A statement of SQL takes its text, and the semicolon after it. -/
theorem parseStatement_sql {text : Span}
    (h : (parseStatement parseType statements).run ts = .ok (some (.sql text), rest)) :
    ts = text ++ rest ∨ ts = text ++ pct ";" :: rest := by
  have hsome : ∀ c : BlockParser Parsed, KeepsSqlText c →
      (do return some (← c) : BlockParser (Option Parsed)).run ts = .ok (some (.sql text), rest) →
      ts = text ++ rest ∨ ts = text ++ pct ";" :: rest := fun c hc hrun => by
    obtain ⟨stmt, rest', hstmt, heq⟩ := run_bind_ok_iff.1 hrun
    cases heq
    exact hc _ _ _ hstmt
  rw [parseStatement, run_choose] at h
  split at h
  · exact hsome _ keepsSqlText_parseSqlStatement h
  split at h
  · obtain ⟨_, _, -, heq⟩ := run_bind_ok_iff.1 h
    cases heq
  split at h
  · exact hsome _ (keepsSqlText_handler _ _) h
  · exact hsome _ keepsSqlText_parseSqlStatement h

/-! ## Spans -/

/-- **The statements of a script and their spans**: a semicolon of its own gives none, and the text
of a statement of SQL is its span without the last semicolon. -/
def Reads (parseType : Span → Except String Unit) : List Token → List (Option Parsed × Span) → Prop
  | ts, [] => ts = []
  | ts, (stmt, span) :: more => ∃ rest fuel, ts = span ++ rest ∧ span ≠ [] ∧
      (stmt = none → span = [pct ";"]) ∧
      (∀ text, stmt = some (.sql text) → span = text ∨ span = text ++ [pct ";"]) ∧
      (parseStatement parseType (parseStatements parseType fuel)).run ts = .ok (stmt, rest) ∧
        Reads parseType rest more

/-- The spans of the statements, in order, are the tokens. -/
theorem Reads.flatten {s : List (Option Parsed × Span)} (h : Reads parseType ts s) :
    (s.map Prod.snd).flatten = ts := by
  induction s generalizing ts with
  | nil => exact h.symm
  | cons x m ih =>
    obtain ⟨r, -, rfl, -, -, -, -, hm⟩ := h
    simp [ih hm]

theorem parseStatement_none (h : (parseStatement parseType statements).run ts = .ok (none, rest)) :
    ts = pct ";" :: rest := by
  rw [parseStatement, run_choose] at h
  have hs : ∀ c : BlockParser Parsed, (do return some (← c) : BlockParser (Option Parsed)).run ts ≠
      .ok (none, rest) := fun c hc => by
    cases hr : c.run ts <;> simp [hr, Except.bind] at hc
  cases ts with
  | nil => exact absurd h (hs _)
  | cons t ts =>
    simp only [List.head?_cons] at h
    split at h
    · next ht =>
      obtain rfl : ts = rest := by simpa [advance, Except.bind, Except.map, Except.mapError] using h
      rw [ht]
    · split at h <;> exact absurd h (hs _)

/-- What the parser returns are the statements of spans of its input. -/
theorem reads_parseStatements {fuel : Nat} {st : List Parsed}
    (h : (parseStatements parseType fuel []).run ts = .ok (st, rest)) :
    ∃ spans, spans.filterMap Prod.fst = st ∧ Reads parseType ts spans := by
  induction fuel generalizing ts st rest with
  | zero => cases h
  | succ fuel ih =>
    rw [parseStatements, run_choose] at h
    cases ts with
    | nil =>
      cases h
      exact ⟨[], rfl, rfl⟩
    | cons t ts =>
      have hk : t.isKeyword [] = false := by simp [Token.isKeyword]
      simp only [List.head?_cons, hk, Bool.false_eq_true, if_false, run_bind] at h
      cases hs : (parseStatement parseType (parseStatements parseType fuel)).run (t :: ts) with
      | error e => simp [hs, Except.bind] at h
      | ok x =>
        obtain ⟨stmt, after⟩ := x
        rw [hs] at h
        simp only [Except.bind] at h
        cases hm : (parseStatements parseType fuel []).run after with
        | error e => simp [hm] at h
        | ok y =>
          obtain ⟨m, r'⟩ := y
          obtain ⟨spans, rfl, hr⟩ := ih hm
          obtain ⟨rfl, -⟩ : stmt.toList ++ spans.filterMap Prod.fst = st ∧ r' = rest := by
            simpa [hm] using h
          obtain ⟨s, hsp⟩ := run_suffix hs
          have hl := advances_parseStatement _ _ _ (List.cons_ne_nil t ts) hs
          refine ⟨(stmt, s) :: spans, ?_, after, fuel, hsp.symm, ?_, ?_, ?_, hs, hr⟩
          · cases stmt <;> simp
          · rintro rfl
            rw [← hsp] at hl
            exact Nat.lt_irrefl _ hl
          · rintro rfl
            rw [parseStatement_none hs] at hsp
            exact List.append_cancel_right (hsp.trans (List.singleton_append).symm)
          · rintro text rfl
            rw [← hsp] at hs
            refine (parseStatement_sql hs).imp List.append_cancel_right fun heq => ?_
            exact List.append_cancel_right (heq.trans (List.append_assoc text [pct ";"] after).symm)

end Bqemulator
