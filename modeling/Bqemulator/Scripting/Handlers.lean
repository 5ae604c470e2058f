import Bqemulator.Scripting.Traversal

/-!
# Exception handlers

The handler of a `BEGIN … EXCEPTION` block should catch every error of its body. It catches what is
raised in the script and the errors of the emulator. An exception of the database is made one of
these where a statement is executed or an expression evaluated; on other paths it passes every
handler.
-/

namespace Bqemulator

open Comp List

variable {σ : Type}

/-! ## Blocks -/

/-- The message of an exception that is an error; the signals of control statements are none. -/
def Exn.errorMessage : Exn → Option String
  | .other message => some message
  | e => e.handledMessage

def handlerFrame (message : String) : Frame :=
  .single .block "__error_message__" "STRING" (.scalar (.string message))

/-- **A block catches the errors of its body**: a body that ends, or is left by a signal, is all
there is. After an error an open transaction is closed, the handler runs once, in a frame with the
message, and the block ends as it does. -/
def CatchesErrors (body handler block : ScriptM σ Unit) (s : Interp σ) : Prop :=
  let o := runBlock .block body s
  (∀ e message, o.result = .error e → e.errorMessage = some message → ∃ w,
    let h := inFrame (handlerFrame message) handler { o.state with world := w, activeTxn := none }
    block s = ⟨o.trace ++ .txn .handler o.state.world w :: h.trace, h.result, h.state⟩) ∧
  ((∀ e, o.result = .error e → e.errorMessage = none) → block s = o)

/-! ## Failures that no handler sees -/

/-- The exceptions that are neither signals nor errors of the emulator. -/
def IsOther (e : Exn) : Prop := ∃ message, e = .other message

/-- Whether an exception of an effect is raised as it is: neither mapped, as for a statement or
expression, nor dropped, as in the cleanup. -/
def Effect.raisesRaw : Effect → Bool
  | .runQuery _ _ _ _ | .runStatementWithParams _ _ _ _ | .cleanupTempRoutines => false
  | _ => true

/-- Whether a failure of an effect passes every handler. Those of preparation are not mapped
anywhere. -/
def Effect.escapes : Effect → Failure → Bool
  | .cleanupTempRoutines, _ => false
  | _, .domain _ => false
  | _, .preparation _ => true
  | e, .engine _ => e.raisesRaw

theorem Effect.escapes_iff_isOther {e : Effect} (he : e.raisesRaw = true) (f : Failure) :
    e.escapes f = true ↔ IsOther f.exn := by
  cases f with
  | domain => exact iff_of_false (by cases e <;> exact nofun) nofun
  | engine message =>
    refine iff_of_true ?_ ⟨message, rfl⟩
    cases e <;> exact he
  | preparation message =>
    refine iff_of_true ?_ ⟨message, rfl⟩
    cases e with
    | cleanupTempRoutines => exact he
    | _ => rfl

mutual

/-- **An event passes every handler**: an effect that fails unmapped, also in a procedure, or a call
nested too deep. -/
def Event.Escapes (env : ScriptEnv σ) : Event σ → Prop
  | .effect e before _ => ∃ failure, (env.perform e before).1 = .error failure ∧
      e.escapes failure = true
  | .called trace escaped _ _ => anyEscapes env trace ∨ escaped = some .tooDeep
  | _ => False

def anyEscapes (env : ScriptEnv σ) : List (Event σ) → Prop
  | [] => False
  | x :: rest => x.Escapes env ∨ anyEscapes env rest

end

theorem anyEscapes_iff {e : ScriptEnv σ} {t : List (Event σ)} :
    anyEscapes e t ↔ ∃ x ∈ t, x.Escapes e := by
  induction t with
  | nil => simp [anyEscapes]
  | cons x r ih => simp [anyEscapes, ih]

/-- The run of a computation meets such an event iff it ends with such an exception. -/
abbrev Told {α : Type} (env : ScriptEnv σ) (c : ScriptM σ α) : Prop :=
  Tells (Event.Escapes env) IsOther c

/-! ## Effects -/

variable {e : Interp σ → Effect} {α : Type}

section Simple

variable {env : ScriptEnv σ} {p : String}

theorem told_pure (a : α) : Told env (pure a : ScriptM σ α) :=
  Tells.of_ends (B := fun _ => True) (.ret trivial)

theorem told_raise {e : Exn} (h : ¬ IsOther e) : Told env (raise e : ScriptM σ α) :=
  Tells.of_ends (B := fun _ => True) (.raise h)

theorem told_domain (e : DomainError) : Told env (raise (.domain e) : ScriptM σ α) :=
  told_raise nofun

theorem told_of_own {c : ScriptM σ α} (h : Own c) : Told env c := by
  refine .of_ends (h.ends (fun x hx => ?_) ?_)
  · cases x with
    | effect | called => cases hx
    | _ => exact id
  · rintro e ⟨err, rfl⟩
    exact nofun

theorem told_attempt_bind {f : Except Failure ResultTable → ScriptM σ α}
    (hp : ∀ s failure, (e s).escapes failure = true → ∃ err, f (.error failure) = raise err ∧
      IsOther err) (hok : ∀ table, Told env (f (.ok table)))
    (hf : ∀ s failure, (e s).escapes failure = false → Told env (f (.error failure))) :
    Told env (attempt env e >>= f) := by
  intro s
  rw [run_bind_of_ok (a := (env.perform (e s) s.world).1) rfl]
  cases ha : (env.perform (e s) s.world).1 with
  | ok table =>
    refine (exists_mem_append_of_not ?_).trans (hok table _)
    rintro ⟨x, hx, he⟩
    cases mem_singleton.1 hx
    obtain ⟨failure, hfa, -⟩ := he
    cases ha.symm.trans hfa
  | error failure =>
    cases he : (e s).escapes failure with
    | true =>
      obtain ⟨err, hr, ho⟩ := hp s failure he
      refine iff_of_true ⟨_, mem_append_left _ (mem_singleton.2 rfl), failure, ha, he⟩ ⟨err, ?_, ho⟩
      rw [hr]
      rfl
    | false =>
      refine (exists_mem_append_of_not ?_).trans (hf s failure he _)
      rintro ⟨x, hx, hx'⟩
      cases mem_singleton.1 hx
      obtain ⟨f', hf', ht⟩ := hx'
      cases ha.symm.trans hf'
      rw [he] at ht
      cases ht

theorem told_perform (e : Interp σ → Effect) (he : ∀ s, (e s).raisesRaw = true) :
    Told env (perform env e) := by
  have hi := fun s => Effect.escapes_iff_isOther (he s)
  refine told_attempt_bind (fun s f hes => ⟨_, rfl, (hi s f).1 hes⟩)
    (fun t => told_pure t) fun s f hes => told_raise fun ho => ?_
  rw [(hi s f).2 ho] at hes
  cases hes

theorem told_query {f : Except Failure ResultTable → ScriptM σ α}
    (he : ∀ s, (e s).raisesRaw = false ∧ e s ≠ .cleanupTempRoutines)
    (hp : ∀ message, f (.error (.preparation message)) = raise (.other message))
    (ho : ∀ table, Told env (f (.ok table))) (hd : ∀ error, Told env (f (.error (.domain error))))
    (hen : ∀ message, Told env (f (.error (.engine message)))) :
    Told env (attempt env e >>= f) := by
  have hi : ∀ s failure, (e s).escapes failure = true ↔ ∃ m, failure = .preparation m := by
    intro s failure
    obtain ⟨hr, hc⟩ := he s
    cases hq : e s <;> cases failure <;> simp_all [Effect.escapes]
  refine told_attempt_bind (fun s failure hes => ?_) ho fun s failure hes => ?_
  · obtain ⟨message, rfl⟩ := (hi s failure).1 hes
    exact ⟨_, hp message, message, rfl⟩
  cases failure with
  | domain error => exact hd error
  | engine message => exact hen message
  | preparation message =>
    rw [(hi s _).2 ⟨message, rfl⟩] at hes
    cases hes

/-! ## Simple statements -/

theorem told_logic : Logic env fun _ => Told env where
  pure := told_pure
  bind := .bind
  domain := told_domain
  query {_ e f} he := told_query fun s => by
    have hs := he s
    cases hq : e s <;> simp_all [Effect.isQuery, Effect.raisesRaw]
  setFinalTable _ := told_of_own (own_setFinalTable _)
  perform e he := told_perform e fun s => by
    have hs := he s
    cases hq : e s <;> simp_all [Effect.isManaged, Effect.raisesRaw]
  lift f hf := told_of_own (.of_quiet (fun _ => rfl) hf)
  assign _ := told_of_own (own_updateFrames _)

theorem told_execSql (text : String) : Told env (execSql env p text) :=
  told_logic.execSql text (fun _ => told_of_own (own_handleTxnStatement _)) fun _ =>
    told_logic.execSqlStatement (fun _ => told_of_own (own_snapshotTarget _))
      (told_query (fun _ => ⟨rfl, nofun⟩)
      (fun _ => rfl) told_pure told_domain fun _ => told_domain _)

end Simple

/-! ## Control flow -/

section Control

variable {env : ScriptEnv σ} {p : String} {body : ScriptM σ Unit}

theorem told_inFrame (frame : Frame) (h : Told env body) : Told env (inFrame frame body) :=
  Tells.bind (told_of_own (own_push frame)) fun _ => .finally h _

theorem told_tryCatch {c : ScriptM σ α} {handler : Exn → ScriptM σ α} (hc : Told env c)
    (hh : ∀ e, ¬ IsOther e → Told env (handler e))
    (hp : ∀ message s, (handler (.other message) s).result = .error (.other message)) :
    Told env (tryCatch c handler) := by
  refine .tryCatch hc hh ?_
  rintro e ⟨message, rfl⟩ s
  exact ⟨_, hp message s, message, rfl⟩

theorem told_iterate (h : Told env body) : Told env (iterate body) := by
  refine told_tryCatch (.bind h fun _ => told_pure _) (fun e he => ?_) fun _ _ => rfl
  cases e with
  | break_ | continue_ => exact told_pure _
  | _ => exact told_raise he

theorem told_iterateFor (l : String) (row : List (String × Scalar)) (h : Told env body) :
    Told env (iterateFor l row body) := by
  have hc : ∀ a, Told env (popFrame >>= fun _ => pure a : ScriptM σ Bool) :=
    fun a => .bind (told_of_own own_popFrame) fun _ => told_pure _
  refine .bind (told_of_own (own_push _)) fun _ => ?_
  refine told_tryCatch (.bind h fun _ => hc true) (fun e he => ?_) fun _ _ => rfl
  cases e with
  | break_ => exact hc false
  | continue_ => exact hc true
  | _ => exact .bind (told_of_own own_leftFor) fun _ => told_raise he

theorem told_execBegin {handler : ScriptM σ Unit} (h : Told env body) (hh : Told env handler) :
    Told env (execBegin env body (some handler)) := by
  refine told_tryCatch (told_inFrame _ h) (fun e he => ?_) fun _ _ => rfl
  split
  · exact told_raise he
  · exact .bind (told_of_own (own_closeTxn _ _)) fun _ => told_inFrame _ hh

end Control

/-! ## Calls and statements -/

section Statements

set_option linter.unusedSectionVars false

variable {env : ScriptEnv σ} {p : String}
  {i : Procedure → List Scalar → ScriptM σ (List (String × Value))}
  (hinvoke : ∀ routine args, Told env (i routine args))

include hinvoke

theorem told_execCall (routineRef : String) (a : List String) :
    Told env (execCall env p i routineRef a) := by
  rw [execCall]
  split
  · exact told_logic.execCallRefreshMv _
  refine .bind (told_logic.resolveCallRoutine _) fun r => ?_
  split
  · exact told_domain _
  · exact .bind (told_logic.evaluateCallArguments _) fun _ =>
      Tells.bind (hinvoke r _) fun _ => told_of_own (own_updateFrames _)

mutual

/-- A run ends with such a failure iff it has met one. -/
theorem told_dispatch : ∀ stmt : Stmt, Told env (dispatch env p i stmt)
  | .declare _ _ _ => .bind (told_logic.evalOptional _) fun _ => told_of_own (own_updateFrames _)
  | .set _ _ => told_logic.execSet _ _
  | .ifThen b none => told_execBranches b (told_pure _)
  | .ifThen b (some e) =>
    told_execBranches b (told_inFrame _ (told_execStatements e))
  | .whileDo _ body =>
    told_logic.execWhile _ (told_iterate (told_inFrame _ (told_execStatements body))) _
  | .loop body => told_logic.execLoop (told_iterate (told_inFrame _ (told_execStatements body))) _
  | .forIn _ _ body =>
    Tells.bind (told_logic.runQuery _) fun _ => told_logic.execFor _
      (fun row => told_iterateFor _ row (told_execStatements body)) _ _
  | .break_ | .continue_ => told_raise nofun
  | .return_ _ => .bind (told_logic.evalOptional _) fun _ => told_raise nofun
  | .begin_ body none => told_inFrame _ (told_execStatements body)
  | .begin_ body (some handler) =>
    told_execBegin (told_execStatements body) (told_execStatements handler)
  | .call _ _ => told_execCall hinvoke _ _
  | .executeImmediate _ _ _ => told_logic.execExecuteImmediate _ _ fun _ _ _ =>
      told_perform _ fun _ => rfl
  | .raise _ => .bind (told_logic.evalOptional _) fun _ => told_raise nofun
  | .createFunction _ => told_logic.execCreateFunction _
  | .createProcedure _ => told_logic.execCreateProcedure _
  | .sql text => show Told env (execSql env p text) from told_execSql text

/-- Statements, one after another. -/
theorem told_execStatements : ∀ stmts : List Stmt,
    Told env (execStatements env p i stmts)
  | [] => told_pure _
  | stmt :: r => .bind (.bind (told_of_own own_countStatement) fun _ => told_dispatch stmt) fun _ =>
      told_execStatements r

theorem told_execBranches : ∀ (branches : List (String × List Stmt)) {elseBody : ScriptM σ Unit},
    Told env elseBody → Told env (execBranches env p i branches elseBody)
  | [], _, he => he
  | (conditionExpr, body) :: rest, _, he => told_logic.execBranch conditionExpr
      (told_inFrame _ (told_execStatements body)) (told_execBranches rest he)

end

theorem told_runScript (source : String) : Told env (runScript env p i source) := by
  rw [runScript]
  cases env.parseScript source with
  | error e => exact told_domain _
  | ok statements =>
    have hc : Told env (attempt env fun _ => .cleanupTempRoutines) := by
      refine .of_ends (B := fun _ => True) fun s => ⟨fun x hx => ?_, fun _ _ => trivial, nofun⟩
      cases mem_singleton.1 hx
      rintro ⟨f, -, hes⟩
      cases hes
    refine .bind (told_tryCatch
      (.bind (told_execStatements hinvoke statements) fun _ => told_of_own (own_closeTxn _ _))
      (fun e he => .bind (told_of_own (own_closeTxn _ _)) fun _ => .bind hc fun _ =>
        told_raise he) fun _ _ => rfl) fun _ => ?_
    exact .bind hc fun _ => .bind
      (told_of_own (.of_quiet (fun _ => rfl) nofun)) fun _ => told_pure _

omit hinvoke in
theorem told_nested {run : ScriptM σ ScriptResult} (h : Told env run) (frames : List Frame) :
    Told env (nested run frames) := by
  intro s
  have hr := h { frames, world := s.world }
  rw [← anyEscapes_iff] at hr
  rw [nested]
  cases hre : (run { frames, world := s.world }).result with
  | ok r => simp [Event.Escapes, hr, hre]
  | error e =>
    cases e with
    | other => simp [Event.Escapes, hr, hre, IsOther]
    | _ => simp [Event.Escapes, hr, hre, IsOther, Exn.tooDeep]

omit hinvoke in
theorem told_invokeProcedure : ∀ (depth : Nat) (routine : Procedure) (args : List Scalar),
    Told env (invokeProcedure env depth routine args) := by
  intro depth
  induction depth with
  | zero =>
    exact fun _ _ s => iff_of_true ⟨_, mem_singleton.2 rfl, .inr rfl⟩ ⟨_, rfl, _, rfl⟩
  | succ depth ih =>
    intro routine args
    rw [invokeProcedure]
    cases calleeFrames routine.arguments args with
    | error e => exact told_domain _
    | ok f => exact told_nested (told_runScript ih _) f

end Statements

/-! ## The errors that are caught -/

theorem execBegin_run (env : ScriptEnv σ) (body handler : ScriptM σ Unit) (s : Interp σ) :
    let o := runBlock .block body s
    (∀ e message, o.result = .error e → e.handledMessage = some message → ∃ w,
      let h := inFrame (handlerFrame message) handler { o.state with world := w, activeTxn := none }
      execBegin env body (some handler) s =
        ⟨o.trace ++ .txn .handler o.state.world w :: h.trace, h.result, h.state⟩) ∧
    ((∀ e, o.result = .error e → e.handledMessage = none) →
      execBegin env body (some handler) s = o) := by
  intro o
  cases hr : o.result with
  | ok u =>
    refine ⟨fun e message he => (by cases he), fun _ => ?_⟩
    have hru : execBegin env body (some handler) s = _ := run_tryCatch_of_ok hr
    rw [hru, ← hr]
  | error e =>
    have hru : execBegin env body (some handler) s = _ := run_tryCatch_of_error hr
    rw [hru]
    refine ⟨fun e' message he hm => ?_, fun hn => ?_⟩
    · cases he
      refine ⟨(dropTxnSnapshots env .handler o.state).state.world, ?_⟩
      simp only [hm]
      rfl
    · simp only [hn e rfl, raise, append_nil]
      rw [← hr]

theorem Exn.handledMessage_eq {e : Exn} (h : ¬ IsOther e) : e.handledMessage = e.errorMessage := by
  cases e with
  | other message => exact absurd ⟨message, rfl⟩ h
  | _ => rfl

/-- **When a block catches the errors of its body**: in every run, iff the body meets no failure
that escapes. -/
theorem catches_errors_iff (env : ScriptEnv σ) (project : String) (depth : Nat)
    (body handler : List Stmt) (s : Interp σ) :
    CatchesErrors (execStatements env project (invokeProcedure env depth) body)
        (execStatements env project (invokeProcedure env depth) handler)
        (dispatch env project (invokeProcedure env depth) (.begin_ body (some handler))) s ↔
      ∀ x ∈ (runBlock .block (execStatements env project (invokeProcedure env depth) body) s).trace,
        ¬ x.Escapes env := by
  have hb : Told env (execStatements env project (invokeProcedure env depth) body) :=
    told_execStatements (told_invokeProcedure depth) body
  have ht := told_inFrame { kind := .block } hb s
  obtain ⟨hc, hp⟩ := execBegin_run env
    (execStatements env project (invokeProcedure env depth) body)
    (execStatements env project (invokeProcedure env depth) handler) s
  constructor
  · -- another exception passes the block, whose trace then has no event of a handler
    intro hca x hx hes
    obtain ⟨e, he, message, rfl⟩ := ht.1 ⟨x, hx, hes⟩
    obtain ⟨w, hw⟩ := hca.1 _ message he rfl
    have hpa := hp fun e' he' => by
      cases he.symm.trans he'
      rfl
    have htr := congrArg (fun o => o.trace.length) (hw.symm.trans hpa)
    simp at htr
  · intro hq
    have hn : ∀ e, (runBlock .block
        (execStatements env project (invokeProcedure env depth) body) s).result = .error e →
        ¬ IsOther e := by
      intro e he ho
      obtain ⟨x, hx, hes⟩ := ht.2 ⟨e, he, ho⟩
      exact hq x hx hes
    refine ⟨fun e message he hm => hc e message he ?_, fun hs => hp ?_⟩
    · exact (Exn.handledMessage_eq (hn e he)).trans hm
    · exact fun e he => (Exn.handledMessage_eq (hn e he)).trans (hs e he)

/-- Surroundings with a database in which a division by zero fails, and a materialized view that
divides by zero. -/
def dividingEnv : ScriptEnv Unit :=
  { ScriptEnv.blank 10 (fun _ => .ok []) [] with
    perform e _ := (match e with
      | .runQuery _ _ "SELECT 'SELECT 1/0'" _ =>
        .ok { columns := ["f"], rows := [[.string "SELECT 1/0"]] }
      | .runQuery _ _ "SELECT 1/0" _ | .runQueryWithParams _ "SELECT 1/0" _ _ =>
        .error (.engine "Division by zero")
      | .runQuery _ _ "SELECT * FROM d.view" _ => .error (.preparation "Division by zero")
      | _ => .ok {}, ()) }

def guardedResult (stmt : Stmt) : Except Exn Unit :=
  (dispatch dividingEnv "p" (invokeProcedure dividingEnv 1)
    (.begin_ [stmt] (some [.sql "SELECT 1"]))
    { frames := [{ kind := .root }], world := () }).result

/-- **The error of a query is caught; that of a dynamic query with `INTO`, and that of the refresh
of a view, leave the block.** -/
theorem handler_passed_by :
    guardedResult (.sql "SELECT 1/0") = .ok () ∧
    guardedResult (.executeImmediate "'SELECT 1/0'" ["x"] []) = .error (.other "Division by zero") ∧
    guardedResult (.sql "SELECT * FROM d.view") = .error (.other "Division by zero") := by
  decide +kernel

end Bqemulator
