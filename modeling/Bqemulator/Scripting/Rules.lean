import Bqemulator.Scripting.Traversal

/-!
# Rules for runs of the interpreter

A relation between the state before a run, its trace and the state after it holds of every run if
the primitive actions keep to it and sequences compose. Two are carried along: `N`, for what leaves
the names of the innermost frame alone, and the weaker `R`, for what may declare.
-/

namespace Bqemulator

open Comp

variable {σ : Type}

abbrev RunRel (σ : Type) := Interp σ → List (Event σ) → Interp σ → Prop

/-- **The effects keep to a relation**, all but the statements of the script. -/
structure EffectRule (env : ScriptEnv σ) (N : RunRel σ) : Prop where
  seqN : Sequential N
  attempt : ∀ e, (∀ s, (e s).isSqlStatement = false) → Respects N (attempt env e)

/-- The actions of an interpreter keep to `N`, those that declare to `R`. -/
structure Rule (env : ScriptEnv σ)
    (invoke : Procedure → List Scalar → ScriptM σ (List (String × Value))) (N R : RunRel σ) :
    Prop extends EffectRule env N where
  seqR : Sequential R
  le : ∀ {s t s'}, N s t s' → R s t s'
  setFinalTable : ∀ table, Respects N (setFinalTable table)
  assign : ∀ values, Respects N (updateFrames (assignAll values))
  declare : ∀ typeName value names, Respects R (updateFrames (declareAll typeName value names))
  inFrame : ∀ frame {body}, Respects R body → Respects N (inFrame frame body)
  iterateFor : ∀ loopVar row {body}, Respects R body → Respects N (iterateFor loopVar row body)
  count : Respects N (countStatement env)
  beginTxn : Respects N beginTxn
  dropTxn : ∀ cause, cause.drops = true → Respects N (dropTxnSnapshots env cause)
  restoreTxn : ∀ cause, cause.restores = true → Respects N (restoreTxnSnapshots env cause)
  execSqlStatement : ∀ project sql, Respects N (execSqlStatement env project sql)
  invoke : ∀ routine args, Respects N (invoke routine args)

/-! ## Expressions -/

variable {α : Type} {body : ScriptM σ Unit}

namespace EffectRule

variable {env : ScriptEnv σ} {project : String} {N : RunRel σ} (rule : EffectRule env N)

include rule

theorem bind {β : Type} {c : ScriptM σ α} {f : α → ScriptM σ β} (hc : Respects N c)
    (hf : ∀ a, Respects N (f a)) : Respects N (c >>= f) :=
  Respects.bind rule.seqN hc hf

theorem raise (e : Exn) : Respects N (Comp.raise e : ScriptM σ α) :=
  Respects.raise rule.seqN e

theorem pure (a : α) : Respects N (Pure.pure a : ScriptM σ α) :=
  Respects.ret rule.seqN a

theorem perform (e : Interp σ → Effect) (he : ∀ s, (e s).isSqlStatement = false) :
    Respects N (perform env e) := by
  refine rule.bind (rule.attempt e he) fun r => ?_
  cases r with
  | ok t => exact rule.pure t
  | error => exact rule.raise _

theorem exprLogic : ExprLogic env fun _ => Respects N where
  pure := rule.pure
  bind := rule.bind
  domain _ := rule.raise _
  query {_ e f} he hp ho hd hen := by
    have hst : ∀ s, (e s).isSqlStatement = false := by
      intro s
      have hs := he s
      cases hq : e s <;> simp_all [Effect.isQuery, Effect.isSqlStatement]
    refine rule.bind (rule.attempt e hst) fun r => ?_
    rcases r with (er | message | message) | table
    · exact hd er
    · exact hen message
    · rw [hp]
      exact rule.raise _
    · exact ho table

theorem effectLogic (hf : ∀ table, Respects N (setFinalTable table)) :
    EffectLogic env fun _ => Respects N where
  toExprLogic := rule.exprLogic
  setFinalTable := hf
  perform e he := by
    refine rule.perform e fun s => ?_
    have hs := he s
    cases hq : e s <;> simp_all [Effect.isManaged, Effect.isSqlStatement]

end EffectRule

/-! ## Simple statements -/

namespace Rule

variable {env : ScriptEnv σ} {project : String}
  {invoke : Procedure → List Scalar → ScriptM σ (List (String × Value))} {N R : RunRel σ}
  (rule : Rule env invoke N R)

include rule

theorem logic : Logic env fun _ => Respects N where
  toEffectLogic := rule.effectLogic rule.setFinalTable
  lift f _ := .lift rule.seqN f
  assign := rule.assign

theorem execDeclare (names : List String) (t : String) (d : Option String) :
    Respects R (execDeclare env project names t d) :=
  Respects.bind rule.seqR (fun s => rule.le (rule.exprLogic.evalOptional d s)) fun _ =>
    rule.declare _ _ _

theorem execReturn (v : Option String) : Respects N (execReturn env project v) :=
  rule.bind (rule.exprLogic.evalOptional v) fun _ => rule.raise _

theorem execRaise (m : Option String) : Respects N (execRaise env project m) :=
  rule.bind (rule.exprLogic.evalOptional m) fun _ => rule.raise _

theorem handleTxnStatement (c : TxnCause) : Respects N (handleTxnStatement env c) := by
  cases c with
  | begin_ => exact rule.beginTxn
  | commit => exact rule.dropTxn _ rfl
  | rollback => exact rule.restoreTxn _ rfl
  | _ => exact rule.pure _

/-! ## Control flow -/

theorem runBlock (kind : FrameKind) (h : Respects R body) : Respects N (runBlock kind body) :=
  rule.inFrame _ h

theorem iterate (h : Respects N body) : Respects N (iterate body) := by
  refine .tryCatch rule.seqN (rule.bind h fun _ => rule.pure _) fun e => ?_
  cases e with
  | break_ | continue_ => exact rule.pure _
  | _ => exact rule.raise _

theorem execBegin {handler : ScriptM σ Unit} (h : Respects R body) (hh : Respects R handler) :
    Respects N (execBegin env body (some handler)) := by
  refine .tryCatch rule.seqN (rule.runBlock _ h) fun e => ?_
  cases e.handledMessage with
  | none => exact rule.raise _
  | some => exact rule.bind (rule.dropTxn _ rfl) fun _ => rule.inFrame _ hh

theorem execCall (routineRef : String) (a : List String) :
    Respects N (execCall env project invoke routineRef a) := by
  rw [Bqemulator.execCall]
  split
  · exact rule.logic.execCallRefreshMv _
  refine rule.bind (rule.logic.resolveCallRoutine _) fun r => ?_
  split
  · exact rule.raise _
  · exact rule.bind (rule.exprLogic.evaluateCallArguments _) fun _ =>
      rule.bind (rule.invoke _ _) fun _ => rule.assign _

/-! ## Statements -/

theorem counted (h : Respects N body) : Respects N (counted env body) :=
  rule.bind rule.count fun _ => h

theorem countedR (h : Respects R body) : Respects R (Bqemulator.counted env body) :=
  Respects.bind rule.seqR (fun s => rule.le (rule.count s)) fun _ => h

theorem dispatchR {stmt : Stmt}
    (h : stmt.isDeclare = false → Respects N (dispatch env project invoke stmt)) :
    Respects R (dispatch env project invoke stmt) := by
  cases stmt with
  | declare names t d => exact rule.execDeclare names t d
  | _ => exact fun s => rule.le (h rfl s)

mutual

/-- Every statement but `DECLARE` keeps to `N`. -/
theorem dispatchN : ∀ stmt : Stmt, stmt.isDeclare = false →
    Respects N (dispatch env project invoke stmt)
  | .declare _ _ _, h => nomatch h
  | .set targets s, _ => rule.logic.execSet targets s
  | .ifThen b none, _ => execBranches b (rule.pure _)
  | .ifThen b (some e), _ =>
    execBranches b (rule.runBlock _ (execStatements e))
  | .whileDo c body, _ => rule.exprLogic.execWhile c
      (rule.iterate (rule.runBlock _ (execStatements body))) _
  | .loop body, _ => rule.exprLogic.execLoop
      (rule.iterate (rule.runBlock _ (execStatements body))) _
  | .forIn l _ body, _ =>
    rule.bind (rule.exprLogic.runQuery _) fun _ => rule.exprLogic.execFor l
      (fun row => rule.iterateFor l row (execStatements body)) _ _
  | .break_, _ => rule.raise _
  | .continue_, _ => rule.raise _
  | .return_ v, _ => rule.execReturn v
  | .begin_ body none, _ => rule.runBlock _ (execStatements body)
  | .begin_ body (some handler), _ =>
    rule.execBegin (execStatements body) (execStatements handler)
  | .call routineRef a, _ => rule.execCall routineRef a
  | .executeImmediate sql _ u, _ =>
    rule.logic.execExecuteImmediate sql u fun _ _ _ => rule.perform _ fun _ => rfl
  | .raise m, _ => rule.execRaise m
  | .createFunction stmt, _ => rule.logic.execCreateFunction stmt
  | .createProcedure stmt, _ => rule.logic.execCreateProcedure stmt
  | .sql text, _ => show Respects N (Bqemulator.execSql env project text) from
      rule.logic.execSql text rule.handleTxnStatement (rule.execSqlStatement project)

/-- All statements keep to the relations. -/
theorem execStatements : ∀ stmts : List Stmt, Respects R (execStatements env project invoke stmts)
  | [] => .ret rule.seqR _
  | stmt :: r =>
    Respects.bind rule.seqR (rule.countedR (rule.dispatchR (dispatchN stmt))) fun _ =>
      execStatements r

theorem execBranches : ∀ (branches : List (String × List Stmt)) {elseBody : ScriptM σ Unit},
    Respects N elseBody → Respects N (execBranches env project invoke branches elseBody)
  | [], _, h => h
  | (conditionExpr, body) :: rest, _, h =>
    rule.exprLogic.execBranch conditionExpr (rule.runBlock _ (execStatements body))
      (execBranches rest h)

end

end Rule

/-! ## Relations that all effects keep to -/

theorem respects_execSqlStatement {env : ScriptEnv σ} {N : RunRel σ} (hse : Sequential N)
    (ha : ∀ e, Respects N (attempt env e)) (hf : ∀ table, Respects N (setFinalTable table))
    (hs : ∀ target, Respects N (snapshotTarget env target)) (p sql : String) :
    Respects N (execSqlStatement env p sql) := by
  have rule : EffectRule env N := ⟨hse, fun e _ => ha e⟩
  have hq : Respects N (runQuery env p true sql) := by
    refine rule.bind (ha _) fun r => ?_
    rcases r with (e | message | message) | table
    · exact rule.raise _
    · exact rule.raise _
    · exact rule.raise _
    · exact rule.pure table
  exact (rule.effectLogic hf).execSqlStatement hs hq

/-! ## Relations that look at no frame -/

structure Core (σ : Type) where
  statementsExecuted : Nat := 0
  activeTxn : Option (List ((String × String) × String)) := none
  world : σ

def Interp.core (s : Interp σ) : Core σ where
  statementsExecuted := s.statementsExecuted
  activeTxn := s.activeTxn
  world := s.world

def onCore (Q : Core σ → List (Event σ) → Core σ → Prop) : RunRel σ :=
  fun s t s' => Q s.core t s'.core

theorem onCore_sequential {Q : Core σ → List (Event σ) → Core σ → Prop} (h : Sequential Q) :
    Sequential (onCore Q) where
  refl s := h.refl s.core
  trans h₁ h₂ := h.trans h₁ h₂

/-- **The actions that change an interpreter's core** keep to a relation; so does a call if the
procedure's run does. -/
structure CoreRule (env : ScriptEnv σ) (Q : Core σ → List (Event σ) → Core σ → Prop) : Prop where
  seq : Sequential Q
  leftFor : ∀ c, Q c [.leftFor] c
  attempt : ∀ e, (∀ s, (e s).isSqlStatement = false) → Respects (onCore Q) (attempt env e)
  count : Respects (onCore Q) (countStatement env)
  beginTxn : Respects (onCore Q) beginTxn
  dropTxn : ∀ cause, cause.drops = true → Respects (onCore Q) (dropTxnSnapshots env cause)
  restoreTxn : ∀ cause, cause.restores = true → Respects (onCore Q) (restoreTxnSnapshots env cause)
  execSqlStatement : ∀ project sql, Respects (onCore Q) (execSqlStatement env project sql)
  called : ∀ c t e c', Q { world := c.world } t c' →
    Q c [.called t e c.world c'.world] { c with world := c'.world }

namespace CoreRule

variable {env : ScriptEnv σ} {Q : Core σ → List (Event σ) → Core σ → Prop}
  (rule : CoreRule env Q)

include rule

theorem onCore_seq : Sequential (onCore Q) := onCore_sequential rule.seq

theorem quiet {c : ScriptM σ α} (ht : ∀ s, (c s).trace = [])
    (hc : ∀ s, (c s).state.core = s.core) : Respects (onCore Q) c := by
  intro s
  rw [onCore, ht, hc]
  exact rule.seq.refl _

theorem iterateFor (l : String) (row : List (String × Scalar))
    (h : Respects (onCore Q) body) : Respects (onCore Q) (iterateFor l row body) := by
  have hp : Respects (onCore Q) popFrame := rule.quiet (fun _ => rfl) fun _ => rfl
  have he : ∀ a : Bool, Respects (onCore Q) (popFrame >>= fun _ => pure a) :=
    fun a => .bind rule.onCore_seq hp fun _ => .ret rule.onCore_seq _
  refine .bind rule.onCore_seq (rule.quiet (fun _ => rfl) fun _ => rfl) fun _ => ?_
  refine .tryCatch rule.onCore_seq
    (.bind rule.onCore_seq h fun _ => he true) fun e => ?_
  cases e with
  | break_ => exact he false
  | continue_ => exact he true
  | _ => exact .bind rule.onCore_seq (.emit fun s => rule.leftFor s.core) fun _ =>
      Respects.raise rule.onCore_seq _

variable {invoke : Procedure → List Scalar → ScriptM σ (List (String × Value))}

/-- Relations that look at no frame. -/
theorem toRule (hi : ∀ routine args, Respects (onCore Q) (invoke routine args)) :
    Rule env invoke (onCore Q) (onCore Q) where
  seqN := rule.onCore_seq
  seqR := rule.onCore_seq
  le h := h
  attempt := rule.attempt
  setFinalTable _ := rule.quiet (fun _ => rfl) fun _ => rfl
  assign _ := rule.quiet (fun _ => rfl) fun _ => rfl
  declare _ _ _ := rule.quiet (fun _ => rfl) fun _ => rfl
  inFrame _ _ h := .bind rule.onCore_seq (rule.quiet (fun _ => rfl) fun _ => rfl)
    fun _ s => h s
  iterateFor loopVar row _ h := rule.iterateFor loopVar row h
  count := rule.count
  beginTxn := rule.beginTxn
  dropTxn := rule.dropTxn
  restoreTxn := rule.restoreTxn
  execSqlStatement := rule.execSqlStatement
  invoke := hi

/-- A run of a script. -/
theorem runScript {p : String}
    (hi : ∀ routine args, Respects (onCore Q) (invoke routine args)) (source : String) :
    Respects (onCore Q) (runScript env p invoke source) := by
  rw [Bqemulator.runScript]
  cases env.parseScript source with
  | error e => exact .raise rule.onCore_seq _
  | ok statements =>
    have hr := rule.toRule hi
    refine hr.bind (.tryCatch rule.onCore_seq
      (hr.bind (hr.execStatements statements) fun _ => hr.dropTxn _ rfl) fun e => ?_)
      fun _ => hr.bind (hr.attempt _ fun _ => rfl) fun _ =>
        hr.bind (.state rule.onCore_seq) fun _ => hr.pure _
    exact hr.bind (hr.restoreTxn _ rfl) fun _ =>
      hr.bind (hr.attempt _ fun _ => rfl) fun _ => hr.raise _

theorem nested {run : ScriptM σ ScriptResult} (h : Respects (onCore Q) run)
    (frames : List Frame) : Respects (onCore Q) (nested run frames) := by
  intro s
  have hc := fun e => rule.called s.core _ e _ (h { frames, world := s.world })
  rw [Bqemulator.nested]
  cases (run { frames, world := s.world }).result with
  | ok r => exact hc none
  | error e =>
    cases e with
    | return_ => exact hc none
    | _ => exact hc (some _)

/-- A call of a procedure, at any depth. -/
theorem invokeProcedure : ∀ (depth : Nat) (routine : Procedure) (args : List Scalar),
    Respects (onCore Q) (invokeProcedure env depth routine args) := by
  intro depth
  induction depth with
  | zero => exact fun _ _ s => rule.called s.core [] _ { world := s.world } (rule.seq.refl _)
  | succ depth ih =>
    intro routine args
    rw [Bqemulator.invokeProcedure]
    cases calleeFrames routine.arguments args with
    | error e => exact .raise rule.onCore_seq _
    | ok f => exact rule.nested (rule.runScript ih _) f

/-- The run of a script by a query job. -/
theorem runJobScript (d : Nat) (p source : String) (w : σ) :
    Q { world := w } (runJobScript env d p source w).trace
      (runJobScript env d p source w).state.core :=
  rule.runScript (rule.invokeProcedure d) source { frames := [{ kind := .root }], world := w }

end CoreRule

end Bqemulator
