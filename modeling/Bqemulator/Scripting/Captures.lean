import Bqemulator.Scripting.Spans

/-!
# Captured texts

The parser finds the end of an expression and of the body of a procedure by looking for a token: the
`THEN` of a `CASE` ends the condition of an `IF`. A body ends where `BEGIN` and `END` balance, but
`END IF` and the `END` of a `CASE` have no `BEGIN`, and `BEGIN TRANSACTION` has no `END`.
-/

namespace Bqemulator

open Consumer Except List

/-! ## Scans -/

def among (t : Token) (k : Nat) (e : Span) : Nat := (e.take k).count t

/-- **Brackets that balance**, with some open before the span: none closes before it opens, and all
are closed at the end. -/
def Enclosed (opening closing : Token) (d : Nat) (e : Span) : Prop :=
  (∀ k, among closing k e ≤ among opening k e + d) ∧ e.count closing = e.count opening + d

variable {opening closing t : Token} {d : Nat} {e rest : Span} {stop : Token → Bool}

@[simp] theorem among_zero : among t 0 e = 0 := by simp [among]

@[simp] theorem among_succ (s : Token) (k : Nat) :
    among t (k + 1) (s :: e) = among t k e + if s = t then 1 else 0 := by
  simp [among, count_cons]

theorem forall_succ_iff {p : Nat → Prop} (h0 : p 0) : (∀ k, p k) ↔ ∀ k, p (k + 1) :=
  ⟨fun h k => h (k + 1), fun h k => by cases k <;> simp_all⟩

theorem enclosed_opening (hn : opening ≠ closing) :
    Enclosed opening closing d (opening :: e) ↔ Enclosed opening closing (d + 1) e := by
  rw [Enclosed, forall_succ_iff (by simp), Enclosed]
  simp only [among_succ, if_neg hn, count_cons, beq_iff_eq]
  refine and_congr (forall_congr' fun k => ?_) ?_ <;> simp <;> omega

theorem enclosed_closing (hn : opening ≠ closing) :
    Enclosed opening closing d (closing :: e) ↔ d ≠ 0 ∧ Enclosed opening closing (d - 1) e := by
  rw [Enclosed, forall_succ_iff (by simp), Enclosed]
  simp only [among_succ, if_pos, if_neg hn.symm, count_cons, beq_iff_eq]
  constructor
  · rintro ⟨hk, ht⟩
    have hd : d ≠ 0 := by
      have := hk 0
      simp at this
      omega
    exact ⟨hd, fun k => by have := hk k; omega, by simp at ht; omega⟩
  · rintro ⟨hd, hk, ht⟩
    exact ⟨fun k => by have := hk k; omega, by simp; omega⟩

theorem enclosed_other {s : Token} (ho : s ≠ opening) (hc : s ≠ closing) :
    Enclosed opening closing d (s :: e) ↔ Enclosed opening closing d e := by
  rw [Enclosed, forall_succ_iff (by simp), Enclosed]
  simp [ho, hc]

/-- When the scan for the end of a body ends where the body does. -/
theorem balancedLength_eq_iff (hn : opening ≠ closing) :
    balancedLength opening closing (d + 1) (e ++ closing :: rest) = some e.length ↔
      Enclosed opening closing d e := by
  induction e generalizing d with
  | nil =>
    rw [nil_append, balancedLength, if_neg hn.symm, if_pos rfl]
    simp only [Enclosed, among]
    split <;> simp <;> omega
  | cons s e ih =>
    rw [cons_append, balancedLength]
    split
    · next h =>
      subst h
      rw [enclosed_opening hn, ← ih]
      cases balancedLength s closing (d + 1 + 1) (e ++ closing :: rest) <;> simp
    split
    · next ho h =>
      subst h
      rw [enclosed_closing hn]
      cases d with
      | zero => simp
      | succ d =>
        rw [← ih]
        cases balancedLength opening s (d + 1) (e ++ s :: rest) <;> simp
    · next ho hc =>
      rw [enclosed_other ho hc, ← ih]
      cases balancedLength opening closing (d + 1) (e ++ closing :: rest) <;> simp

/-- No token that stops a scan stands outside of parentheses. -/
def StopFree (stop : Token → Bool) (d : Nat) (e : Span) : Prop :=
  ∀ k s, e[k]? = some s → among (pct "(") k e + d = among (pct ")") k e → stop s = false

/-- When the scan for the end of an expression ends where it does. -/
theorem captureLength_eq_iff (he : Enclosed (pct "(") (pct ")") d e) (ht : stop t = true)
    (hst : stop (pct "(") = false) (hcl : stop (pct ")") = false) :
    captureLength stop d (e ++ t :: rest) = e.length ↔ StopFree stop d e := by
  have hn : pct "(" ≠ pct ")" := by decide
  have hop : t ≠ pct "(" := fun h => by simp [← h, ht] at hst
  induction e generalizing d with
  | nil =>
    obtain rfl : d = 0 := by simpa using he.2.symm
    rw [nil_append, captureLength, if_neg hop]
    simp [ht, StopFree]
  | cons s e ih =>
    have hco : StopFree stop d (s :: e) ↔ (d = 0 → stop s = false) ∧ ∀ k u, e[k]? = some u →
        among (pct "(") (k + 1) (s :: e) + d = among (pct ")") (k + 1) (s :: e) →
          stop u = false := by
      constructor
      · exact fun h => ⟨fun hd => h 0 s rfl (by simpa using hd), fun k u hu => h (k + 1) u hu⟩
      · rintro ⟨h0, hk⟩ (_ | k) u hu hd
        · obtain rfl : s = u := by simpa using hu
          exact h0 (by simpa using hd)
        · exact hk k u hu hd
    rw [cons_append, captureLength, hco]
    split
    · next h =>
      subst h
      refine Nat.add_right_cancel_iff.trans ((ih ((enclosed_opening hn).1 he)).trans ?_)
      simp only [among_succ, if_neg hn, hst, implies_true, true_and, if_true]
      refine forall₃_congr fun k u _ => imp_congr_left ?_
      omega
    · split
      · next ho h =>
        subst h
        obtain ⟨hd, hr⟩ := (enclosed_closing hn).1 he
        rw [if_neg hd]
        refine Nat.add_right_cancel_iff.trans ((ih hr).trans ?_)
        simp only [among_succ, if_neg hn.symm, hcl, implies_true, true_and, if_true]
        refine forall₃_congr fun k u _ => imp_congr_left ?_
        omega
      · next ho hc =>
        simp only [among_succ, if_neg ho, if_neg hc]
        by_cases hs : d = 0 ∧ stop s = true
        · simp [hs]
        have : ¬ (decide (d = 0) && stop s) = true := by simpa using hs
        rw [if_neg this]
        refine Nat.add_right_cancel_iff.trans ((ih ((enclosed_other ho hc).1 he)).trans ?_)
        refine (and_iff_right fun hd => ?_).symm
        simpa [hd] using hs

/-! ## Procedures -/

theorem take_eq_iff {n : Nat} : (e ++ t :: rest).take n = e ↔ n = e.length := by
  constructor
  · intro h
    have := congrArg length h
    simp only [length_take, length_append, length_cons] at this
    omega
  · rintro rfl
    exact take_left

variable (name : String)

def procedureTokens (body rest : Span) : List Token :=
  [kw "CREATE", kw "PROCEDURE", ⟨.ident, name⟩, pct "(", pct ")", kw "BEGIN"] ++
    (body ++ kw "END" :: pct ";" :: rest)

variable {parseType : Span → Except String Unit}

variable (value v : String)

@[simp] theorem run_expect_cons (p : Token → Bool) (e : Option Token → String) (s : Token)
    (ts : List Token) : (expect p e).run (s :: ts) =
      if p s then .ok (s, ts) else .error (e (some s)) := by
  rw [expect, run_scan]
  simp only [head?_cons]
  split <;> rfl

attribute [local simp] Except.bind Except.map Except.mapError expectKeyword

@[simp] theorem run_accept_cons (p : Token → Bool) (s : Token) (ts : List Token) :
    (accept p).run (s :: ts) = .ok (p s, if p s then ts else s :: ts) := by
  rw [accept, run_scan]
  cases hp : p s <;> simp [hp]

@[simp] theorem isKeyword_kw (kws : List String) :
    (kw value).isKeyword kws = decide (value ∈ kws) := Bool.true_and _

@[simp] theorem pct_inj (w : String) : pct v = pct w ↔ v = w := by simp [pct]

@[simp] theorem ident_ne_pct (w : String) : Token.mk .ident v ≠ pct w := by simp [pct]

@[simp] theorem kw_ne_pct (w : String) : kw v ≠ pct w := by simp [kw, pct]

@[simp] theorem run_readIdentifierValue (ts : List Token) :
    readIdentifierValue.run (⟨.ident, name⟩ :: ts) = .ok (name, ts) := by
  simp [readIdentifierValue]

theorem run_readDottedName (ts : List Token) :
    readDottedName.run (⟨.ident, name⟩ :: pct "(" :: ts) = .ok ([name], pct "(" :: ts) := by
  rw [readDottedName, run_sepBy]
  simp

variable {statements : List String → BlockParser (List Parsed)}

theorem run_parseStatement_keyword (k : String) (ts : List Token) :
    (parseStatement parseType statements).run (kw k :: ts) =
      ((handler parseType statements k (kw k :: ts)).run (kw k :: ts)).map fun x =>
        (some x.1, x.2) := by
  rw [parseStatement, run_choose]
  simp only [head?_cons, if_neg (kw_ne_pct k ";")]
  rw [if_pos (show (kw k).kind = .keyword from rfl), run_bind]
  change ((handler parseType statements k (kw k :: ts)).run (kw k :: ts)).bind _ = _
  cases (handler parseType statements k (kw k :: ts)).run (kw k :: ts) <;> rfl

variable {ts : List Token}

theorem run_parseStatements_cons {fuel : Nat} {stops : List String}
    (h : t.isKeyword stops = false) : (parseStatements parseType (fuel + 1) stops).run (t :: ts) =
      ((parseStatement parseType (parseStatements parseType fuel)).run (t :: ts)).bind fun x =>
        ((parseStatements parseType fuel stops).run x.2).map fun y => (x.1.toList ++ y.1, y.2) := by
  rw [parseStatements, run_choose]
  simp only [head?_cons, h, Bool.false_eq_true, if_false, run_bind]
  refine congrArg _ (funext fun x => ?_)
  cases (parseStatements parseType fuel stops).run x.2 <;> rfl

theorem run_create (fuel : Nat) (name : String) (ts : List Token) :
    (parseStatement parseType (parseStatements parseType fuel)).run
        (kw "CREATE" :: kw "PROCEDURE" ::
          ⟨.ident, name⟩ :: pct "(" :: pct ")" :: kw "BEGIN" :: ts) =
      ((captureBalancedBlock.run ts).bind fun x => (consumeOptionalSemicolon.run x.2).map fun y =>
        (some (Parsed.createProcedure [name] [] x.1 false), y.2)).mapError some := by
  rw [run_parseStatement_keyword]
  change ((lift (parseCreateRoutine parseType)).run _).map _ = _
  simp [parseCreateRoutine, parseProcedureRest, parseRoutineArgList,
    run_readDottedName, expectPunct]
  cases run captureBalancedBlock ts with
  | error e => rfl
  | ok x => cases hs : run consumeOptionalSemicolon x.2 <;> simp [hs]

/-- **The body of a procedure is what was written** iff its keywords `BEGIN` and `END` balance. -/
theorem procedure_kept_iff {name : String} {body rest : Span} {stmts : List Parsed}
    (hrest : parseScript parseType rest = .ok stmts) :
    parseScript parseType (procedureTokens name body rest) =
        .ok (.createProcedure [name] [] body false :: stmts) ↔
      Enclosed (kw "BEGIN") (kw "END") 0 body := by
  have hf : (parseStatements parseType (rest.length + 1) []).run rest =
      (parseStatements parseType (procedureTokens name body rest).length []).run rest := by
    have hl : rest.length ≤ (procedureTokens name body rest).length - 1 := by
      simp only [procedureTokens, length_append, length_cons]
      omega
    have := (@settled_parseStatements parseType _ _ hl [] rest le_rfl).1
    rwa [Nat.sub_add_cancel (by simp [procedureTokens])] at this
  rw [parseScript, hf] at hrest
  rw [parseScript]
  generalize (procedureTokens name body rest).length = f at hrest
  rw [procedureTokens, cons_append, run_parseStatements_cons (by simp)]
  simp only [cons_append, nil_append]
  rw [run_create, captureBalancedBlock, run_scan]
  have hs := @balancedLength_eq_iff (kw "BEGIN") (kw "END") 0 body (pct ";" :: rest) (by decide)
  rw [← hs]
  cases hn : balancedLength (kw "BEGIN") (kw "END") (0 + 1)
    (body ++ kw "END" :: pct ";" :: rest) with
  | none => simp
  | some n =>
    constructor
    · intro h
      cases hc : consumeOptionalSemicolon.run
          ((body ++ kw "END" :: pct ";" :: rest).drop (n + 1)) with
      | error e => simp [hc] at h
      | ok x =>
        cases hm : (parseStatements parseType f []).run x.2 with
        | error e => simp [hc, hm] at h
        | ok y =>
          simp [hc, hm] at h
          rw [take_eq_iff.1 h.1]
    · intro h
      obtain rfl := Option.some.inj h
      cases hm : (parseStatements parseType f []).run rest with
      | error e => simp [hm] at hrest
      | ok y =>
        simp [consumeOptionalSemicolon]
        simpa [hm] using hrest

/-- `BEGIN SELECT f(x); BEGIN SELECT 1; END; END; SELECT 2;` -/
def blockBody : Span :=
  [kw "BEGIN", kw "SELECT", ⟨.ident, "f"⟩, pct "(", ⟨.ident, "x"⟩, pct ")", pct ";", kw "BEGIN",
    kw "SELECT", ⟨.number, "1"⟩, pct ";", kw "END", pct ";", kw "END", pct ";", kw "SELECT",
    ⟨.number, "2"⟩, pct ";"]

/-- A procedure with a block inside a block, and a statement behind it. -/
theorem procedure_kept_blockBody :
    parseScript (fun _ => .ok ()) (procedureTokens "p" blockBody [kw "SELECT", ⟨.number, "3"⟩]) =
      .ok [.createProcedure ["p"] [] blockBody false, .sql [kw "SELECT", ⟨.number, "3"⟩]] :=
  (procedure_kept_iff rfl).2 ((@balancedLength_eq_iff _ _ 0 blockBody [] (by decide)).1 (by decide))

def caseBody : Span :=
  [kw "SELECT", ⟨.ident, "CASE"⟩, kw "WHEN", ⟨.ident, "a"⟩, kw "THEN", ⟨.ident, "b"⟩,
    kw "END", pct ";"]

theorem procedure_cut_caseBody :
    let result := parseScript (fun _ => .ok ()) (procedureTokens "p" caseBody [])
    result = .ok [.createProcedure ["p"] [] (caseBody.take 6) false, .sql [kw "END"]] ∧
      result ≠ .ok [.createProcedure ["p"] [] caseBody false] := by
  have hr : parseScript (fun _ => .ok ()) (procedureTokens "p" caseBody []) =
      .ok [.createProcedure ["p"] [] (caseBody.take 6) false, .sql [kw "END"]] := by
    rw [parseScript, procedureTokens, cons_append, run_parseStatements_cons (by simp)]
    simp only [cons_append]
    rw [run_create]
    rfl
  exact ⟨hr, fun h => absurd (hr.symm.trans h) (by simp)⟩

/-! ## Expressions -/

inductive ExprSite where
  | ifThen (body : Span) (stmts : List Parsed)
  | whileDo (body : Span) (stmts : List Parsed)
  | declare (name : String) (names : List String) (type : Token) (more : Span)
  | set (target : String)
  | setAll (target : String) (targets : List String)
  | return_

def commaNames (names : List String) : Span :=
  ⟨.ident, name⟩ :: names.flatMap fun other => [pct ",", ⟨.ident, other⟩]

namespace ExprSite

def before : ExprSite → Span
  | .ifThen _ _ => [kw "IF"]
  | .whileDo _ _ => [kw "WHILE"]
  | .declare name names type more =>
    kw "DECLARE" :: (commaNames name names ++ type :: (more ++ [kw "DEFAULT"]))
  | .set target => [kw "SET", ⟨.ident, target⟩, ⟨.op, "="⟩]
  | .setAll target targets =>
    kw "SET" :: pct "(" :: (commaNames target targets ++ [pct ")", ⟨.op, "="⟩])
  | .return_ => [kw "RETURN"]

def ending (tail : Span) : ExprSite → Token × Span
  | .ifThen body _ => (kw "THEN", body ++ kw "END" :: kw "IF" :: pct ";" :: tail)
  | .whileDo body _ => (kw "DO", body ++ kw "END" :: kw "WHILE" :: pct ";" :: tail)
  | _ => (pct ";", tail)

def stops : ExprSite → Token → Bool
  | .ifThen _ _ => (·.isKeyword ["THEN"])
  | .whileDo _ _ => (·.isKeyword ["DO"])
  | _ => isSemicolon

def stmt (e : Span) : ExprSite → Parsed
  | .ifThen _ stmts => .ifThen [(e, stmts)] none
  | .whileDo _ stmts => .whileDo e stmts
  | .declare name names type more => .declare (name :: names) (type :: more) (some e)
  | .set target => .set [target] e
  | .setAll target targets => .set (target :: targets) e
  | .return_ => .return_ (some e)

/-- The statements after a condition and the type of a variable are read as they are. -/
def Fits (parseType : Span → Except String Unit) (fuel : Nat) (tail : Span) : ExprSite → Prop
  | .ifThen body stmts => let after := kw "END" :: kw "IF" :: pct ";" :: tail
    (parseStatements parseType fuel ["ELSEIF", "ELSIF", "ELSE", "END"]).run (body ++ after) =
      .ok (stmts, after)
  | .whileDo body stmts => let after := kw "END" :: kw "WHILE" :: pct ";" :: tail
    (parseStatements parseType fuel ["END"]).run (body ++ after) = .ok (stmts, after)
  | .declare _ _ type more => type ≠ pct "," ∧ ∀ ts, readTypeName.run
      (type :: (more ++ kw "DEFAULT" :: ts)) = .ok (type :: more, kw "DEFAULT" :: ts)
  | _ => True

end ExprSite

attribute [local simp] ExprSite.stmt ExprSite.ending

theorem run_readNames (names : List String) (ts : List Token) (h : t ≠ pct ",") :
    readNames.run (commaNames name names ++ t :: ts) = .ok (name :: names, t :: ts) := by
  induction names generalizing name with
  | nil =>
    rw [readNames, run_sepBy]
    simp [commaNames, h]
  | cons o names ih =>
    have hm := ih o
    rw [readNames] at hm
    rw [readNames, run_sepBy]
    simp only [commaNames, cons_append] at hm
    simp [commaNames, hm]

theorem run_parseStatement_ok_iff {k : String} {stmt : Parsed} :
    (parseStatement parseType statements).run (kw k :: ts) = .ok (some stmt, rest) ↔
      (handler parseType statements k (kw k :: ts)).run (kw k :: ts) = .ok (stmt, rest) := by
  rw [run_parseStatement_keyword]
  cases run (handler parseType statements k (kw k :: ts)) (kw k :: ts) <;> simp [Prod.ext_iff]

theorem kept_iff {stmt : Span → Parsed} (hi : Function.Injective stmt) {n : Nat} {tail : Span} :
    (consumeOptionalSemicolon.run ((e ++ pct ";" :: tail).drop n)).map
        (fun y => (stmt ((e ++ pct ";" :: tail).take n), y.2)) = .ok (stmt e, tail) ↔
          n = e.length := by
  constructor
  · intro h
    cases hc : consumeOptionalSemicolon.run ((e ++ pct ";" :: tail).drop n) with
    | error _ => simp [hc] at h
    | ok y =>
      simp only [hc, Except.map, Except.ok.injEq, Prod.mk.injEq] at h
      exact take_eq_iff.1 (hi h.1)
  · rintro rfl
    simp [consumeOptionalSemicolon]

theorem run_captured {n : Nat} (h : captureLength stop 0 ts = n) :
    (captureExprUntil stop).run ts = .ok (ts.take n, ts.drop n) := by
  subst h
  rfl

theorem run_closeBlock (o : String) (tail : Span) :
    (closeBlock o).run (kw "END" :: kw o :: pct ";" :: tail) = .ok ((), tail) := by
  simp [closeBlock, consumeOptionalSemicolon]

/-- **An expression is what was written** iff no token that may end it stands in it outside of
parentheses. -/
theorem expression_kept_iff {site : ExprSite} {fuel : Nat} {tail : Span}
    (he : Enclosed (pct "(") (pct ")") 0 e) (hne : e ≠ []) (hfits : site.Fits parseType fuel tail) :
    (parseStatement parseType (parseStatements parseType fuel)).run
        (site.before ++ (e ++ (site.ending tail).1 :: (site.ending tail).2)) =
          .ok (some (site.stmt e), tail) ↔ StopFree site.stops 0 e := by
  have hsc : captureLength site.stops 0 (e ++ (site.ending tail).1 :: (site.ending tail).2) =
      e.length ↔ StopFree site.stops 0 e :=
    captureLength_eq_iff he (by cases site <;> rfl) (by cases site <;> rfl) (by cases site <;> rfl)
  rw [← hsc]
  generalize hn : captureLength site.stops 0 (e ++ (site.ending tail).1 :: (site.ending tail).2) = n
  have hc := run_captured hn
  have hse : ∀ n, captureLength isSemicolon 0 (e ++ pct ";" :: tail) = n →
      (captureExprUntil isSemicolon).run (e ++ pct ";" :: tail) =
        .ok ((e ++ pct ";" :: tail).take n, (e ++ pct ";" :: tail).drop n) := fun _ => run_captured
  have hk : ∀ k ts x r, (lift (expectKeyword k)).run (kw k :: ts) = .ok (x, r) → ts = r :=
    fun k ts x r h => by
      have : kw k = x ∧ ts = r := by simpa using run_lift_ok_iff.1 h
      exact this.2
  cases site with
  | set target =>
    refine run_parseStatement_ok_iff.trans (run_lift_ok_iff.trans ?_)
    have hc := hse n hn
    rw [← @kept_iff e (.set [target]) (fun _ _ h => by injection h) n tail]
    simp [parseSet, hc, List.singleton]
  | return_ =>
    refine run_parseStatement_ok_iff.trans (run_lift_ok_iff.trans ?_)
    have hc := hse n hn
    obtain ⟨s, e, rfl⟩ := List.exists_cons_of_ne_nil hne
    by_cases hs : s = pct ";"
    · subst hs
      simp [parseReturn, consumeOptionalSemicolon, ← hn, ExprSite.stops, captureLength, isSemicolon]
    · rw [← @kept_iff (s :: e) (fun x => .return_ (some x)) (fun _ _ h => by simpa using h) n tail]
      rw [List.cons_append] at hc
      simp [parseReturn, consumeOptionalSemicolon, hs, hc]
  | setAll target targets =>
    refine run_parseStatement_ok_iff.trans (run_lift_ok_iff.trans ?_)
    have hc := hse n hn
    rw [← @kept_iff e (.set (target :: targets)) (fun _ _ h => by injection h) n tail]
    have hna := @run_readNames (pct ")") target targets (⟨.op, "="⟩ :: (e ++ pct ";" :: tail))
    simp [parseSet, expectPunct, hna, hc]
  | declare name names t m =>
    refine run_parseStatement_ok_iff.trans (run_lift_ok_iff.trans ?_)
    have hc := hse n hn
    rw [← @kept_iff e (fun x => .declare (name :: names) (t :: m) (some x))
      (fun _ _ h => by simpa using h) n tail]
    have hna := run_readNames name names (m ++ kw "DEFAULT" :: (e ++ pct ";" :: tail)) hfits.1
    have ht := hfits.2 (e ++ pct ";" :: tail)
    simp [parseDeclare, hna, ht, hc]
  | whileDo body st =>
    refine run_parseStatement_ok_iff.trans ?_
    constructor
    · intro h
      obtain ⟨_, ts, h1, h⟩ := run_bind_ok_iff.1 h
      obtain rfl := hk _ _ _ _ h1
      obtain ⟨c, _, h2, h⟩ := run_bind_ok_iff.1 h
      obtain ⟨_, _, -, h⟩ := run_bind_ok_iff.1 h
      obtain ⟨_, _, -, h⟩ := run_bind_ok_iff.1 h
      cases h
      exact take_eq_iff.1 (Prod.mk.inj (Except.ok.inj (hc.symm.trans (run_lift_ok_iff.1 h2)))).1
    · rintro rfl
      have hcl := run_closeBlock "WHILE" tail
      dsimp only [ExprSite.Fits, ExprSite.ending, ExprSite.stops] at hfits hc
      change (parseWhile (parseStatements parseType fuel)).run
        (kw "WHILE" :: (e ++ kw "DO" :: (body ++ _))) =
        .ok (.whileDo e st, tail)
      simp [parseWhile, parseBody, hc, hfits, hcl]
  | ifThen body st =>
    refine run_parseStatement_ok_iff.trans ?_
    constructor
    · intro h
      obtain ⟨_, ts, h1, h⟩ := run_bind_ok_iff.1 h
      obtain rfl := hk _ _ _ _ h1
      obtain ⟨b, _, h2, h⟩ := run_bind_ok_iff.1 h
      obtain ⟨_, _, m, h3, rfl⟩ := sepBy_head h2
      obtain ⟨c, _, h4, h3⟩ := run_bind_ok_iff.1 h3
      obtain ⟨_, _, -, h3⟩ := run_bind_ok_iff.1 h3
      obtain ⟨_, _, -, h3⟩ := run_bind_ok_iff.1 h3
      cases h3
      obtain ⟨i, _, -, h⟩ := run_bind_ok_iff.1 h
      have hco : c = e := by
        split at h
        · obtain ⟨_, _, -, h⟩ := run_bind_ok_iff.1 h
          cases h
        · obtain ⟨_, _, -, h⟩ := run_bind_ok_iff.1 h
          cases h
          rfl
      have hta := (Prod.mk.inj (Except.ok.inj (hc.symm.trans (run_lift_ok_iff.1 h4)))).1
      exact take_eq_iff.1 (hta.trans hco)
    · rintro rfl
      have hcl := run_closeBlock "IF" tail
      dsimp only [ExprSite.Fits, ExprSite.ending, ExprSite.stops] at hfits hc
      have hb : (parseBranch (parseStatements parseType fuel)).run
          (e ++ kw "THEN" :: (body ++ kw "END" :: kw "IF" :: pct ";" :: tail)) =
          .ok ((e, st), kw "END" :: kw "IF" :: pct ";" :: tail) := by
        simp [parseBranch, hc, hfits]
      change (parseIf (parseStatements parseType fuel)).run
        (kw "IF" :: (e ++ kw "THEN" :: (body ++ _))) =
        .ok (.ifThen [(e, st)] none, tail)
      simp [parseIf, run_sepBy, hb, hcl]

/-- `f(a, (1 + 2)) > 3` -/
def callCondition : Span :=
  [⟨.ident, "f"⟩, pct "(", ⟨.ident, "a"⟩, pct ",", pct "(", ⟨.number, "1"⟩, ⟨.op, "+"⟩,
    ⟨.number, "2"⟩, pct ")", pct ")", ⟨.op, ">"⟩, ⟨.number, "3"⟩]

/-- `IF … THEN SELECT 1; END IF;` -/
def selectIf : ExprSite :=
  .ifThen [kw "SELECT", ⟨.number, "1"⟩, pct ";"] [.sql [kw "SELECT", ⟨.number, "1"⟩]]

/-- The condition of an `IF` with a call and parentheses in it. -/
theorem expression_kept_callCondition :
    (parseStatement (fun _ => .ok ()) (parseStatements (fun _ => .ok ()) 9)).run
        (selectIf.before ++ (callCondition ++ (selectIf.ending []).1 :: (selectIf.ending []).2)) =
      .ok (some (selectIf.stmt callCondition), []) := by
  have he : Enclosed (pct "(") (pct ")") 0 callCondition :=
    (@balancedLength_eq_iff _ _ 0 callCondition [] (by decide)).1 (by decide)
  exact (expression_kept_iff he (by decide) (by rfl)).2
    ((@captureLength_eq_iff (kw "THEN") 0 callCondition [] (·.isKeyword ["THEN"]) he rfl rfl
      rfl).1 (by decide))

def caseCondition : Span :=
  [⟨.ident, "CASE"⟩, kw "WHEN", ⟨.ident, "a"⟩, kw "THEN", ⟨.ident, "TRUE"⟩, kw "END"]

def caseIf : Span :=
  caseCondition ++ [kw "THEN", kw "SELECT", ⟨.number, "1"⟩, pct ";", kw "END", kw "IF", pct ";"]

def cutBody : List Parsed :=
  [.sql [⟨.ident, "TRUE"⟩, kw "END", kw "THEN", kw "SELECT", ⟨.number, "1"⟩]]

/-- **A `CASE` in the condition of an `IF`** ends the condition: what is left of it is read as the
first statement. -/
theorem expression_cut_caseCondition :
    let result := (parseStatement (fun _ => .ok ()) (parseStatements (fun _ => .ok ()) 9)).run
      (kw "IF" :: caseIf)
    result = .ok (some (.ifThen [(caseCondition.take 3, cutBody)] none), []) ∧
      result ≠ .ok
        (some (.ifThen [(caseCondition, [.sql [kw "SELECT", ⟨.number, "1"⟩]])] none), []) := by
  have hb : (parseBranch (parseStatements (fun _ => .ok ()) 9)).run caseIf =
      .ok ((caseCondition.take 3, cutBody), [kw "END", kw "IF", pct ";"]) := rfl
  have hr : (parseStatement (fun _ => .ok ()) (parseStatements (fun _ => .ok ()) 9)).run
      (kw "IF" :: caseIf) = .ok (some (.ifThen [(caseCondition.take 3, cutBody)] none), []) := by
    have hc := run_closeBlock "IF" []
    refine run_parseStatement_ok_iff.2 ?_
    change (parseIf _).run _ = _
    simp [parseIf, run_sepBy, hb, hc]
  exact ⟨hr, fun h => absurd (hr.symm.trans h) (by simp [caseCondition])⟩

end Bqemulator
