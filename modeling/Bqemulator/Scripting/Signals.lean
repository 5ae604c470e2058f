import Bqemulator.Scripting.Traversal

/-!
# Control signals

`BREAK`, `CONTINUE`, `RETURN` and `RAISE` are exceptions: a loop catches the first two, the run of a
procedure `RETURN`, and a handler `RAISE`. A run of a script catches none, and the run of a
procedure lets a `BREAK` through to the loop of its caller.
-/

namespace Bqemulator

open Comp Except List

variable {σ : Type}

/-! ## What is caught where -/

mutual

def Event.signalsStay : Event σ → Bool
  | .called trace escaped _ _ =>
    signalsStayIn trace && escaped ≠ some .break_ && escaped ≠ some .continue_
  | _ => true

def signalsStayIn : List (Event σ) → Bool
  | [] => true
  | e :: rest => e.signalsStay && signalsStayIn rest

end

theorem signalsStayIn_iff {t : List (Event σ)} :
    signalsStayIn t = true ↔ ∀ x ∈ t, x.signalsStay = true := by
  induction t with
  | nil => simp [signalsStayIn]
  | cons x r ih => simp [signalsStayIn, ih]

/-- A run ends with a result or an error of the emulator, and no `BREAK` or `CONTINUE` leaves a
procedure. -/
def EndsProperly {α : Type} (o : Outcome (Event σ) Exn (Interp σ) α) : Prop :=
  ((∃ r, o.result = .ok r) ∨ ∃ e, o.result = .error (.domain e)) ∧ signalsStayIn o.trace = true

/-- Which signals are caught around a statement: by a loop, a handler, the run of a procedure. Calls
reach procedures of a rank below `below`. -/
structure SignalContext where
  loop : Bool := false
  handler : Bool := false
  procedure : Bool := false
  below : Nat

def SignalContext.Allows (ctx : SignalContext) : Exn → Prop
  | .break_ | .continue_ => ctx.loop = true
  | .return_ _ => ctx.procedure = true
  | .raised _ _ => ctx.handler = true
  | .domain _ => True
  | .other _ => False

section Contained

variable (env : ScriptEnv σ) (project : String) (rank : Procedure → Nat)

mutual

/-- **The signals of a statement are caught.** A query of `EXECUTE IMMEDIATE … INTO` is left out:
its engine errors are not mapped. -/
def Stmt.Contained : SignalContext → Stmt → Prop
  | ctx, .ifThen branches none => BranchesContained ctx branches
  | ctx, .ifThen branches (some elseBody) =>
    BranchesContained ctx branches ∧ AllContained ctx elseBody
  | ctx, .whileDo _ body => AllContained { ctx with loop := true } body
  | ctx, .loop body => AllContained { ctx with loop := true } body
  | ctx, .forIn _ _ body => AllContained { ctx with loop := true } body
  | ctx, .break_ | ctx, .continue_ => ctx.loop = true
  | ctx, .return_ _ => ctx.procedure = true
  | ctx, .raise _ => ctx.handler = true
  | ctx, .begin_ body none => AllContained ctx body
  | ctx, .begin_ body (some handler) =>
    AllContained { ctx with handler := true } body ∧ AllContained ctx handler
  | ctx, .call routineRef _ => ∀ s routine,
    (resolveCallRoutine env project routineRef s).result = .ok routine → rank routine < ctx.below
  | _, .executeImmediate _ intoNames _ => intoNames = []
  | _, _ => True

/-- The signals of the statements are caught. -/
def AllContained : SignalContext → List Stmt → Prop
  | _, [] => True
  | ctx, stmt :: rest => stmt.Contained ctx ∧ AllContained ctx rest

def BranchesContained : SignalContext → List (String × List Stmt) → Prop
  | _, [] => True
  | ctx, (_, body) :: rest => AllContained ctx body ∧ BranchesContained ctx rest

end

end Contained

/-- Whether an engine error of an effect is mapped to an error of the emulator, or the effect is one
of `EXECUTE IMMEDIATE … INTO`. -/
def Effect.mapsErrors : Effect → Bool
  | .runQuery _ _ _ _ | .runStatementWithParams _ _ _ _ | .runQueryWithParams _ _ _ _ => true
  | _ => false

/-- **The environment of a contained script**: bodies of procedures are contained, calls go down in
rank, effects that are no queries fail only with the emulator's errors, and the views a query reads
can be refreshed. -/
structure ScriptEnv.WellBehaved (env : ScriptEnv σ) (rank : Procedure → Nat) : Prop where
  procedures : ∀ w id routine statements, env.getProcedure w id = some routine →
    env.parseScript routine.definitionBody = .ok statements →
    AllContained env routine.projectId rank { procedure := true, below := rank routine } statements
  engine : ∀ e w message, (env.perform e w).1 = .error (.engine message) → e.mapsErrors = true
  preparation : ∀ e w message, (env.perform e w).1 ≠ .error (.preparation message)

/-! ## Simple statements -/

/-- Every event of a trace keeps its signals. -/
def Stays (x : Event σ) : Prop := x.signalsStay = true

theorem SignalContext.allows_of_isDomain (c : SignalContext) : ∀ e, IsDomain e → c.Allows e := by
  rintro e ⟨err, rfl⟩
  trivial

/-- A computation that ends with a value, or with an error of the emulator. -/
abbrev Plain {α : Type} (c : ScriptM σ α) : Prop := Ends Stays (fun _ => True) IsDomain c

variable {α β : Type}

section Simple

variable {env : ScriptEnv σ} {project : String} {rank : Procedure → Nat}

theorem plain_bind {c : ScriptM σ α} {f : α → ScriptM σ β} (hc : Plain c) (hf : ∀ a, Plain (f a)) :
    Plain (c >>= f) :=
  Ends.bind hc fun a _ => hf a

theorem plain_pure (a : α) : Plain (pure a : ScriptM σ α) := .ret trivial

theorem plain_domain (e : DomainError) : Plain (raise (.domain e) : ScriptM σ α) :=
  Ends.raise ⟨e, rfl⟩

theorem plain_of_own {c : ScriptM σ α} (h : Own c) : Plain c :=
  h.ends (fun x hx => by cases x <;> first | rfl | cases hx) fun _ => id

theorem plain_attempt (e : Interp σ → Effect) : Plain (attempt env e) :=
  fun _ => ⟨fun x hx => by cases mem_singleton.1 hx; rfl, fun _ _ => trivial, nofun⟩

variable (h : env.WellBehaved rank)

include h

theorem ends_attempt (e : Interp σ → Effect) :
    Ends Stays (fun r => ∀ message, r ≠ .error (.preparation message)) IsDomain (attempt env e) :=
  fun s => ⟨(plain_attempt e s).1,
    fun _ hr message hm => h.preparation _ _ message ((ok.inj hr).trans hm),
    fun _ he => by cases he⟩

theorem plain_runQuery (isStatement : Bool) (sql : String) :
    Plain (runQuery env project isStatement sql) := by
  refine .bind (ends_attempt h _) fun r hr => ?_
  rcases r with (e | message | message) | table
  · exact plain_domain _
  · exact plain_domain _
  · exact absurd rfl (hr message)
  · exact plain_pure _

theorem plain_perform (e : Interp σ → Effect) (he : ∀ s, (e s).mapsErrors = false) :
    Plain (perform env e) := by
  have hat : Ends Stays (fun r => ∀ f, r = .error f → ∃ e, f = .domain e)
      IsDomain (attempt env e) := by
    refine fun s => ⟨(plain_attempt e s).1, fun r hr f hf => ?_, fun e he => by cases he⟩
    have ha := (ok.inj hr).trans hf
    cases f with
    | domain error => exact ⟨error, rfl⟩
    | preparation => exact absurd ha (h.preparation _ _ _)
    | engine message =>
      have hm := h.engine (e s) s.world message ha
      rw [he] at hm
      cases hm
  refine .bind hat fun r hr => ?_
  cases r with
  | ok => exact plain_pure _
  | error f =>
    obtain ⟨error, rfl⟩ := hr f rfl
    exact plain_domain _

theorem plain_logic : Logic env fun _ => Plain where
  pure := plain_pure
  bind := plain_bind
  domain := plain_domain
  query {_ e f} _ _ ho hd hen := by
    refine .bind (ends_attempt h e) fun r hr => ?_
    rcases r with (err | message | message) | table
    · exact hd err
    · exact hen message
    · exact absurd rfl (hr message)
    · exact ho table
  setFinalTable _ := plain_of_own (own_setFinalTable _)
  perform e he := by
    refine plain_perform h e fun s => ?_
    have hs := he s
    cases hq : e s <;> simp_all [Effect.isManaged, Effect.mapsErrors]
  lift f hf := plain_of_own (.of_quiet (fun _ => rfl) hf)
  assign _ := plain_of_own (own_updateFrames _)

theorem plain_execDeclare (names : List String) (t : String) (d : Option String) :
    Plain (execDeclare env project names t d) :=
  plain_bind ((plain_logic h).evalOptional _) fun _ =>
    plain_of_own (own_updateFrames _)

theorem plain_execSql (text : String) : Plain (execSql env project text) :=
  (plain_logic h).execSql text (fun _ => plain_of_own (own_handleTxnStatement _)) fun _ =>
    (plain_logic h).execSqlStatement (fun _ => plain_of_own (own_snapshotTarget _))
      (plain_runQuery h _ _)

end Simple

/-! ## Control flow -/

/-- A computation that only signals of a context leave. -/
abbrev Within {α : Type} (ctx : SignalContext) (c : ScriptM σ α) : Prop :=
  Ends Stays (fun _ => True) ctx.Allows c

section Control

variable {env : ScriptEnv σ} {project : String} {ctx : SignalContext} {body : ScriptM σ Unit}
  {c : ScriptM σ α}

theorem Within.of_plain (h : Plain c) : Within ctx c :=
  h.mono ctx.allows_of_isDomain

theorem Within.of_own (h : Own c) : Within ctx c := .of_plain (plain_of_own h)

protected theorem Within.bind {f : α → ScriptM σ β} (hc : Within ctx c)
    (hf : ∀ a, Within ctx (f a)) : Within ctx (c >>= f) :=
  Ends.bind hc fun a _ => hf a

protected theorem Within.pure (a : α) : Within ctx (pure a : ScriptM σ α) := .ret trivial

protected theorem Within.domain (e : DomainError) : Within ctx (raise (.domain e) : ScriptM σ α) :=
  Ends.raise trivial

protected theorem Within.inFrame (frame : Frame) (h : Within ctx body) :
    Within ctx (inFrame frame body) :=
  Within.bind (.of_own (own_push frame)) fun _ => .finally h _

protected theorem Within.iterate (h : Within { ctx with loop := true } body) :
    Within ctx (iterate body) := by
  refine .tryCatch (Within.bind h fun _ => Within.pure _) fun e he => ?_
  cases e with
  | break_ | continue_ => exact Within.pure _
  | _ => exact .raise he

protected theorem Within.iterateFor (loopVar : String) (row : List (String × Scalar))
    (h : Within { ctx with loop := true } body) : Within ctx (iterateFor loopVar row body) := by
  have hcl : ∀ again ctx, Within ctx (popFrame >>= fun _ => pure again : ScriptM σ Bool) :=
    fun again ctx => .bind (.of_own own_popFrame) fun _ => .pure _
  have hl : ∀ e, ctx.Allows e →
      Within ctx (emit .leftFor >>= fun _ => raise e : ScriptM σ Bool) :=
    fun e he => .bind (.of_own own_leftFor) fun _ => .raise he
  refine .bind (.of_own (own_push _)) fun _ => ?_
  refine .tryCatch (Within.bind h fun _ => hcl true _) fun e he => ?_
  cases e with
  | break_ => exact hcl false _
  | continue_ => exact hcl true _
  | _ => exact hl _ he

theorem within_logic {rank : Procedure → Nat} (h : env.WellBehaved rank) :
    ExprLogic env fun _ => Within ctx where
  pure := .pure
  bind := .bind
  domain := .domain
  query {_ e f} _ _ ho hd hen := by
    refine Ends.bind ((ends_attempt h e).mono ctx.allows_of_isDomain) fun r hr => ?_
    rcases r with (err | message | message) | table
    · exact hd err
    · exact hen message
    · exact absurd rfl (hr message)
    · exact ho table

protected theorem Within.execBegin {handler : ScriptM σ Unit}
    (h : Within { ctx with handler := true } body)
    (hh : Within ctx handler) : Within ctx (execBegin env body (some handler)) := by
  have hru : ∀ message, Within ctx (dropTxnSnapshots env .handler >>= fun _ =>
      inFrame (.single .block "__error_message__" "STRING" (.scalar (.string message))) handler) :=
    fun message => .bind (.of_own (own_closeTxn _ _)) fun _ =>
      Within.inFrame _ hh
  refine .tryCatch (Within.inFrame _ h) fun e he => ?_
  cases e with
  | raised err message => cases message <;> exact hru _
  | domain => exact hru _
  | _ => exact .raise he

end Control

/-! ## Calls and statements -/

section Statements

set_option linter.unusedSectionVars false

variable {env : ScriptEnv σ} {project : String} {rank : Procedure → Nat}
  {invoke : Procedure → List Scalar → ScriptM σ (List (String × Value))} {depth : Nat}

theorem ends_resolveCallRoutine (h : env.WellBehaved rank) (ref : String) :
    Ends Stays (fun routine => (∃ w id, env.getProcedure w id = some routine) ∧
      ∃ s, (resolveCallRoutine env project ref s).result = .ok routine) IsDomain
      (resolveCallRoutine env project ref) := by
  have hp : Plain (resolveCallRoutine env project ref) :=
    (plain_logic h).resolveCallRoutine ref
  refine fun s => ⟨(hp s).1, fun routine hr => ⟨?_, s, hr⟩, (hp s).2.2⟩
  rw [resolveCallRoutine] at hr
  cases hi : (resolveRef env project ref s).result with
  | error e =>
    rw [run_bind_of_error hi] at hr
    cases hr
  | ok id =>
    rw [run_bind_of_ok hi] at hr
    simp only [lift] at hr
    split at hr
    · rename_i routine' hg
      obtain rfl := ok.inj hr
      exact ⟨_, _, hg⟩
    · cases hr

variable (h : env.WellBehaved rank)
  (hinvoke : ∀ w id routine, env.getProcedure w id = some routine → rank routine < depth →
    ∀ args, Plain (invoke routine args))

include h hinvoke

theorem plain_execCall {routineRef : String} (hc : ∀ s routine,
      (resolveCallRoutine env project routineRef s).result = .ok routine → rank routine < depth)
    (a : List String) : Plain (execCall env project invoke routineRef a) := by
  rw [execCall]
  split
  · exact (plain_logic h).execCallRefreshMv _
  refine .bind (ends_resolveCallRoutine h routineRef) ?_
  rintro routine ⟨⟨w, id, hg⟩, s, hs⟩
  split
  · exact plain_domain _
  · exact plain_bind ((plain_logic h).evaluateCallArguments _) fun _ =>
      plain_bind (hinvoke w id routine hg (hc s routine hs) _) fun _ =>
        plain_of_own (own_updateFrames _)

mutual

/-- What can leave a contained statement. -/
protected theorem Within.dispatch : ∀ (ctx : SignalContext) (stmt : Stmt), ctx.below ≤ depth →
    stmt.Contained env project rank ctx → Within ctx (dispatch env project invoke stmt)
  | ctx, .declare names typeName defaultExpr, _, _ => .of_plain (plain_execDeclare h _ _ _)
  | ctx, .set targets sourceExpr, _, _ => .of_plain ((plain_logic h).execSet _ _)
  | ctx, .ifThen branches none, hb, hc => .execBranches ctx branches hb hc (.pure _)
  | ctx, .ifThen branches (some elseBody), hb, hc => .execBranches ctx branches hb hc.1
      (.inFrame _ (.execStatements ctx elseBody hb hc.2))
  | ctx, .whileDo conditionExpr body, hb, hc =>
    (within_logic h).execWhile _ (.iterate (.inFrame _
      (.execStatements { ctx with loop := true } body hb hc))) _
  | ctx, .loop body, hb, hc =>
    (within_logic h).execLoop (.iterate (.inFrame _
      (.execStatements { ctx with loop := true } body hb hc))) _
  | ctx, .forIn loopVar sourceSql body, hb, hc =>
    Within.bind ((within_logic h).runQuery _) fun _ => (within_logic h).execFor _ (fun row =>
      Within.iterateFor _ row (.execStatements { ctx with loop := true } body hb hc)) _ _
  | ctx, .break_, _, hc => .raise hc
  | ctx, .continue_, _, hc => .raise hc
  | ctx, .return_ valueExpr, _, hc =>
    Within.bind ((within_logic h).evalOptional _) fun _ => .raise hc
  | ctx, .begin_ body none, hb, hc => .inFrame _ (.execStatements ctx body hb hc)
  | ctx, .begin_ body (some handler), hb, hc =>
    Within.execBegin (.execStatements { ctx with handler := true } body hb hc.1)
      (.execStatements ctx handler hb hc.2)
  | ctx, .call routineRef argExprs, hb, hc => .of_plain
      (plain_execCall h hinvoke (fun s routine hs => (hc s routine hs).trans_le hb) argExprs)
  | ctx, .executeImmediate sqlExpr intoNames usingExprs, _, hc => by
    obtain rfl : intoNames = [] := hc
    exact .of_plain ((plain_logic h).execExecuteImmediate sqlExpr usingExprs
      fun hne => absurd rfl hne)
  | ctx, .raise messageExpr, _, hc =>
    Within.bind ((within_logic h).evalOptional _) fun _ => .raise hc
  | ctx, .createFunction stmt, _, _ => .of_plain ((plain_logic h).execCreateFunction stmt)
  | ctx, .createProcedure stmt, _, _ =>
    Within.of_plain ((plain_logic h).execCreateProcedure stmt)
  | ctx, .sql text, _, _ => show Within ctx (execSql env project text) from
      Within.of_plain (plain_execSql h text)

protected theorem Within.execStatements : ∀ (ctx : SignalContext) (stmts : List Stmt),
    ctx.below ≤ depth →
    AllContained env project rank ctx stmts → Within ctx (execStatements env project invoke stmts)
  | _, [], _, _ => .pure _
  | ctx, stmt :: rest, hb, hc =>
    Within.bind (.bind (.of_own own_countStatement) fun _ =>
      Within.dispatch ctx stmt hb hc.1) fun _ => .execStatements ctx rest hb hc.2

protected theorem Within.execBranches : ∀ (ctx : SignalContext)
    (branches : List (String × List Stmt)),
    ctx.below ≤ depth → BranchesContained env project rank ctx branches →
    ∀ {elseBody : ScriptM σ Unit}, Within ctx elseBody →
      Within ctx (execBranches env project invoke branches elseBody)
  | _, [], _, _, _, he => he
  | ctx, (conditionExpr, body) :: rest, hb, hc, _, he =>
    (within_logic h).execBranch conditionExpr
      (.inFrame _ (.execStatements ctx body hb hc.1))
      (.execBranches ctx rest hb hc.2 he)

end

end Statements

/-! ## Runs -/

section Runs

variable {env : ScriptEnv σ} {rank : Procedure → Nat}

protected theorem Within.runScript (h : env.WellBehaved rank)
    {invoke : Procedure → List Scalar → ScriptM σ (List (String × Value))} {ctx : SignalContext}
    (hinvoke : ∀ w id routine, env.getProcedure w id = some routine → rank routine < ctx.below →
      ∀ args, Plain (invoke routine args)) {project source : String}
    (hsource : ∀ statements, env.parseScript source = .ok statements →
      AllContained env project rank ctx statements) :
    Within ctx (runScript env project invoke source) := by
  rw [runScript]
  cases hparse : env.parseScript source with
  | error e => exact .domain _
  | ok statements =>
    have hcleanup : Within ctx (attempt env fun _ => .cleanupTempRoutines) :=
      Within.of_plain (plain_attempt _)
    refine Within.bind (.tryCatch (Within.bind
      (.execStatements h hinvoke ctx statements (Nat.le_refl _) (hsource _ hparse))
      fun _ => .of_own (own_closeTxn _ _)) fun e he => ?_) fun _ =>
      Within.bind hcleanup fun _ => .bind
        (.of_own (.of_quiet (fun _ => rfl) nofun)) fun _ => Within.pure _
    exact Within.bind (Within.of_own (own_closeTxn _ _)) fun _ =>
      Within.bind hcleanup fun _ => .raise he

theorem plain_nested {run : ScriptM σ ScriptResult} {n : Nat}
    (hr : Within { procedure := true, below := n } run) (frames : List Frame) :
    Plain (nested run frames) := by
  intro s
  obtain ⟨ht, -, her⟩ := hr { frames, world := s.world }
  have hs : ∀ es : Option Exn, es ≠ some .break_ → es ≠ some .continue_ →
      ∀ w w' : σ, Stays (.called (run { frames, world := s.world }).trace es w w') := by
    intro es hb hc w w'
    simp [Stays, Event.signalsStay, signalsStayIn_iff.2 ht, hb, hc]
  rw [nested]
  cases hre : (run { frames, world := s.world }).result with
  | ok r =>
    exact ⟨fun x hx => List.mem_singleton.1 hx ▸ hs none nofun nofun _ _, fun _ _ => trivial,
      fun e he => by cases he⟩
  | error e =>
    have ha := her e hre
    cases e with
    | return_ =>
      exact ⟨fun x hx => List.mem_singleton.1 hx ▸ hs none nofun nofun _ _, fun _ _ => trivial,
        fun e he => by cases he⟩
    | domain error =>
      exact ⟨fun x hx => List.mem_singleton.1 hx ▸ hs (some (.domain error)) nofun nofun _ _,
        fun _ _ => trivial, fun e he => ⟨error, (Except.error.inj he).symm⟩⟩
    | _ => cases ha

theorem plain_invokeProcedure (h : env.WellBehaved rank) : ∀ (depth : Nat) (w : σ) (id : TableId)
    (routine : Procedure), env.getProcedure w id = some routine → rank routine < depth →
    ∀ args, Plain (invokeProcedure env depth routine args) := by
  intro depth
  induction depth with
  | zero => exact fun _ _ _ _ hr => absurd hr (Nat.not_lt_zero _)
  | succ depth ih =>
    intro w id routine hg hr args
    rw [invokeProcedure]
    cases calleeFrames routine.arguments args with
    | error e => exact plain_domain _
    | ok f =>
      refine plain_nested (n := rank routine) (.runScript h ?_ ?_) f
      · exact fun w' id' r' hg' hr' =>
          ih w' id' r' hg' (hr'.trans_le (Nat.le_of_lt_succ hr))
      · exact fun statements hparse => h.procedures w id routine statements hg hparse

end Runs

/-- **A contained script ends properly**, if its calls are nested no deeper than the depth. -/
theorem runJobScript_endsProperly (env : ScriptEnv σ) (rank : Procedure → Nat)
    (h : env.WellBehaved rank) (depth : Nat) (project source : String) (w : σ)
    (hsource : ∀ statements, env.parseScript source = .ok statements →
      AllContained env project rank { below := depth } statements) :
    EndsProperly (runJobScript env depth project source w) := by
  have hr : Within { below := depth } (runScript env project (invokeProcedure env depth) source) :=
    Within.runScript h (plain_invokeProcedure h depth) hsource
  obtain ⟨ht, -, her⟩ := hr { frames := [{ kind := .root }], world := w }
  refine ⟨?_, signalsStayIn_iff.2 ht⟩
  cases hre : (runJobScript env depth project source w).result with
  | ok r => exact .inl ⟨r, rfl⟩
  | error e =>
    have ha := her e hre
    cases e with
    | domain error => exact .inr ⟨error, rfl⟩
    | _ => cases ha

def signalScripts : String → Except DomainError (List Stmt)
  | "RETURN;" => .ok [.return_ none]
  | "RAISE;" => .ok [.raise none]
  | "BREAK;" => .ok [.break_]
  | "LOOP CALL d.stop(); END LOOP;" => .ok [.loop [.call "d.stop" []]]
  | _ => .ok [.loop [.break_], .begin_ [.raise none] (some []), .call "d.back" []]

def plainProcedure (name body : String) : TableId × Procedure :=
  (⟨"p", "d", name⟩,
    { projectId := "p", routineId := name, arguments := [], definitionBody := body })

/-- Signals inside the constructs that catch them, with a procedure that returns. -/
theorem runJobScript_endsProperly_caught :
    EndsProperly (runJobScript (.blank 10 signalScripts [plainProcedure "back" "RETURN;"]) 1 "p"
      "LOOP BREAK; END LOOP; BEGIN RAISE; EXCEPTION WHEN ERROR THEN END; CALL d.back();" ()) := by
  refine runJobScript_endsProperly _ (fun _ => 0) ⟨?_, ?_, ?_⟩ 1 "p" _ () ?_
  · intro w id r statements hg hparse
    obtain ⟨entry, hen, rfl⟩ := Option.map_eq_some_iff.1 hg
    obtain rfl := mem_singleton.1 (mem_of_find?_eq_some hen)
    obtain rfl := ok.inj hparse
    exact ⟨rfl, trivial⟩
  · intro e w message hf
    cases e with
    | runQuery => rfl
    | _ => cases hf
  · intro e w message hf
    simp only [ScriptEnv.blank] at hf
    split at hf <;> cases hf
  · intro statements hparse
    obtain rfl := ok.inj hparse
    exact ⟨⟨rfl, trivial⟩, ⟨⟨rfl, trivial⟩, trivial⟩, fun _ _ _ => Nat.one_pos, trivial⟩

/-- **Signals that are not caught**: `RETURN` and `RAISE` leave the run, and the `BREAK` of a
procedure ends the loop of its caller. -/
theorem runJobScript_signals :
    let env := ScriptEnv.blank 10 signalScripts [plainProcedure "stop" "BREAK;"]
    (runJobScript env 1 "p" "RETURN;" ()).result = .error (.return_ .null) ∧
    (runJobScript env 1 "p" "RAISE;" ()).result =
      .error (.raised (.invalidQuery "User-raised error") none) ∧
    (runJobScript env 1 "p" "LOOP CALL d.stop(); END LOOP;" ()).result.toOption.isSome ∧
    signalsStayIn (runJobScript env 1 "p" "LOOP CALL d.stop(); END LOOP;" ()).trace = false :=
  ⟨by decide, by decide, by decide, by decide⟩

end Bqemulator
