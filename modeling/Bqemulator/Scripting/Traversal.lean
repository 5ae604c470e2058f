import Bqemulator.Scripting.Interpreter

/-!
# Properties of computations, over the syntax

Many properties of runs hold of the primitive actions of the interpreter and are kept by sequences.
What follows for expressions and simple statements follows for all of them in the same way.
-/

namespace Bqemulator

variable {σ : Type}

def IsDomain (e : Exn) : Prop := ∃ error, e = .domain error

/-- The effects of expressions and dynamic statements, whose engine errors are mapped. -/
def Effect.isQuery : Effect → Bool
  | .runQuery isStatement _ _ _ => !isStatement
  | .runStatementWithParams _ _ _ _ => true
  | _ => false

def Effect.isManaged : Effect → Bool
  | .runQuery _ _ _ _ | .runStatementWithParams _ _ _ _ | .runQueryWithParams _ _ _ _ |
    .cleanupTempRoutines => false
  | _ => true

/-- **A property that expressions have.** An answer to a query is handled by cases; what the
preparation raises is passed on. -/
structure ExprLogic (env : ScriptEnv σ) (P : (α : Type) → ScriptM σ α → Prop) : Prop where
  pure : ∀ {α : Type} (a : α), P α (pure a)
  bind : ∀ {α β : Type} {c : ScriptM σ α} {f : α → ScriptM σ β},
    P α c → (∀ a, P β (f a)) → P β (c >>= f)
  domain : ∀ {α : Type} (e : DomainError), P α (Comp.raise (.domain e))
  query : ∀ {α : Type} {e : Interp σ → Effect} {f : Except Failure ResultTable → ScriptM σ α},
    (∀ s, (e s).isQuery = true) →
    (∀ message, f (.error (.preparation message)) = Comp.raise (.other message)) →
    (∀ table, P α (f (.ok table))) → (∀ error, P α (f (.error (.domain error)))) →
    (∀ message, P α (f (.error (.engine message)))) → P α (attempt env e >>= f)

/-- A property that managed effects have, too. -/
structure EffectLogic (env : ScriptEnv σ) (P : (α : Type) → ScriptM σ α → Prop) : Prop
    extends ExprLogic env P where
  setFinalTable : ∀ table, P Unit (setFinalTable table)
  perform : ∀ e, (∀ s, (e s).isManaged = true) → P ResultTable (perform env e)

/-- The properties that simple statements have. -/
structure Logic (env : ScriptEnv σ) (P : (α : Type) → ScriptM σ α → Prop) : Prop
    extends EffectLogic env P where
  lift : ∀ {α : Type} (f : Interp σ → Except Exn α), (∀ s e, f s = .error e → IsDomain e) →
    P α (Comp.lift f)
  assign : ∀ values, P Unit (updateFrames (assignAll values))

/-! ## Actions of the interpreter itself -/

/-- The events that are neither an effect nor a call. -/
def Event.isOwn : Event σ → Bool
  | .effect _ _ _ | .called _ _ _ _ => false
  | _ => true

/-- **An action that calls nothing** and fails only with an error of the emulator. -/
abbrev Own {α : Type} (c : ScriptM σ α) : Prop :=
  Comp.Ends (fun x => x.isOwn = true) (fun _ => True) IsDomain c

section Own

variable {α : Type} {c : ScriptM σ α} {env : ScriptEnv σ}

theorem Own.ends {G : Event σ → Prop} {A : Exn → Prop} (h : Own c)
    (hG : ∀ x : Event σ, x.isOwn = true → G x) (hA : ∀ e, IsDomain e → A e) :
    Comp.Ends G (fun _ => True) A c :=
  fun s => ⟨fun x hx => hG x ((h s).1 x hx), fun _ _ => trivial, fun e he => hA e ((h s).2.2 e he)⟩

theorem Own.of_quiet (ht : ∀ s, (c s).trace = [])
    (he : ∀ s e, (c s).result = .error e → IsDomain e) : Own c :=
  Comp.Ends.of_quiet ht (fun _ _ _ => trivial) he

theorem Own.of_ok (ht : ∀ s, ∀ x ∈ (c s).trace, x.isOwn = true)
    (ho : ∀ s, ∃ a, (c s).result = .ok a) : Own c := by
  refine fun s => ⟨ht s, fun _ _ => trivial, fun e he => ?_⟩
  obtain ⟨a, ha⟩ := ho s
  rw [ha] at he
  cases he

theorem own_pure (a : α) : Own (pure a : ScriptM σ α) := .ret trivial

theorem own_setFinalTable (t : Option ResultTable) :
    Own (setFinalTable t : ScriptM σ Unit) := .of_quiet (fun _ => rfl) nofun

theorem own_push (frame : Frame) : Own (push frame : ScriptM σ Unit) :=
  .of_quiet (fun _ => rfl) nofun

theorem own_popFrame : Own (popFrame : ScriptM σ Unit) := .of_quiet (fun _ => rfl) nofun

theorem own_updateFrames (change : List Frame → List Frame × Option DomainError) :
    Own (updateFrames change : ScriptM σ Unit) := by
  refine .of_quiet (fun _ => rfl) fun s e he => ?_
  simp only [updateFrames] at he
  cases h : (change s.frames).2 with
  | none => simp [h] at he
  | some err =>
    simp only [h, Except.error.injEq] at he
    exact ⟨err, he.symm⟩

theorem own_leftFor : Own (Comp.emit .leftFor : ScriptM σ Unit) :=
  .of_ok (fun _ x hx => by cases List.mem_singleton.1 hx; rfl) fun _ => ⟨_, rfl⟩

theorem own_countStatement : Own (countStatement env) := by
  intro s
  rw [countStatement]
  split
  · exact ⟨nofun, nofun, fun e he => ⟨_, (Except.error.inj he).symm⟩⟩
  · exact ⟨fun x hx => by cases List.mem_singleton.1 hx; rfl, fun _ _ => trivial, nofun⟩

theorem own_closeTxn (c : TxnCause) (change : List ((String × String) × String) → σ → σ) :
    Own (closeTxn c change) :=
  .of_ok (fun _ x hx => by cases List.mem_singleton.1 hx; rfl) fun _ => ⟨_, rfl⟩

theorem own_snapshotTarget (target : String × String) : Own (snapshotTarget env target) := by
  refine .of_ok (fun s x hx => ?_) fun s => ?_ <;>
    rcases snapshotTarget_cases env target s with ⟨h, -⟩ | ⟨b, after, -, -, -, h⟩
  · rw [h] at hx
    cases hx
  · rw [h] at hx
    cases List.mem_singleton.1 hx
    rfl
  · exact ⟨(), congrArg Outcome.result h⟩
  · exact ⟨(), congrArg Outcome.result h⟩

theorem own_handleTxnStatement (c : TxnCause) : Own (handleTxnStatement env c) := by
  cases c with
  | begin_ => exact .of_ok (fun _ x hx => by cases List.mem_singleton.1 hx; rfl) fun _ => ⟨_, rfl⟩
  | commit | rollback => exact own_closeTxn _ _
  | _ => exact own_pure _

end Own

variable {env : ScriptEnv σ} {P : (α : Type) → ScriptM σ α → Prop} {p : String}

/-! ## Expressions and loops -/

variable (sql expr cond ref : String)

namespace ExprLogic

variable (logic : ExprLogic env P)

include logic

theorem runQuery : P _ (runQuery env p false sql) :=
  logic.query (fun _ => rfl) (fun _ => rfl) logic.pure logic.domain fun _ => logic.domain _

/-- The property of expressions. -/
theorem evalExprScalar : P _ (evalExprScalar env p expr) :=
  logic.bind (logic.runQuery _) fun _ => logic.pure _

theorem evalOptional (expr : Option String) : P _ (evalOptional env p expr) := by
  cases expr with
  | none => exact logic.pure _
  | some expr => exact logic.evalExprScalar expr

theorem evalExprs (exprs : List String) : P _ (evalExprs env p exprs) := by
  induction exprs with
  | nil => exact logic.pure _
  | cons e r ih =>
    exact logic.bind (logic.evalExprScalar e) fun _ => logic.bind ih fun _ => logic.pure _

theorem evalExprRow : P _ (evalExprRow env p expr) := by
  refine logic.bind (logic.runQuery _) fun t => ?_
  cases t.toPylist with
  | nil => exact logic.domain _
  | cons => exact logic.pure _

theorem evaluateOneArgument (m : ParamMode) (expr : String) :
    P _ (evaluateOneArgument env p m expr) := by
  cases m with
  | output => exact logic.pure _
  | inout | input => exact logic.bind (logic.evalExprScalar _) fun _ => logic.pure _

theorem evaluateCallArguments (args : List ((String × ParamMode) × String)) :
    P _ (evaluateCallArguments env p args) := by
  induction args with
  | nil => exact logic.pure _
  | cons a r ih =>
    exact logic.bind (logic.evaluateOneArgument _ _) fun _ => logic.bind ih fun _ => logic.pure _

variable {body : ScriptM σ Unit}

/-- A `WHILE` loop has it if one iteration does. -/
theorem execWhile (hb : P _ (iterate (runBlock .loop body))) (left : Nat) :
    P _ (execWhile env p cond body left) := by
  induction left with
  | zero =>
    refine logic.bind (logic.evalExprScalar _) fun value => ?_
    split
    · exact logic.domain _
    · exact logic.pure _
  | succ left ih =>
    refine logic.bind (logic.evalExprScalar _) fun value => ?_
    split
    · refine logic.bind hb fun a => ?_
      split
      · exact ih
      · exact logic.pure _
    · exact logic.pure _

theorem execLoop (hb : P _ (iterate (runBlock .loop body))) (left : Nat) :
    P _ (execLoop env body left) := by
  induction left with
  | zero => exact logic.domain _
  | succ left ih =>
    refine logic.bind hb fun a => ?_
    split
    · exact ih
    · exact logic.pure _

/-- A `FOR` loop has it if one iteration does. -/
theorem execFor (l : String) (hb : ∀ row, P _ (iterateFor l row body))
    (rows : List (List (String × Scalar))) (left : Nat) :
    P _ (execFor env l body left rows) := by
  induction rows generalizing left with
  | nil => cases left <;> exact logic.pure _
  | cons row r ih =>
    cases left with
    | zero => exact logic.domain _
    | succ left =>
      refine logic.bind (hb row) fun a => ?_
      split
      · exact ih left
      · exact logic.pure _

theorem execBranch {body r : ScriptM σ Unit} (hb : P _ body) (hr : P _ r) :
    P _ (Bqemulator.evalExprScalar env p cond >>=
        fun value => if isTruthy value then body else r) := by
  refine logic.bind (logic.evalExprScalar cond) fun value => ?_
  split
  · exact hb
  · exact hr

end ExprLogic

/-! ## Simple statements -/

namespace EffectLogic

variable (logic : EffectLogic env P)

include logic

theorem performFinal (e : Interp σ → Effect) (he : ∀ s, (e s).isManaged = true)
    (t : Option ResultTable) :
    P _ (Bqemulator.perform env e >>= fun _ => Bqemulator.setFinalTable t) :=
  logic.bind (logic.perform e he) fun _ => logic.setFinalTable t

/-- The property of statements of SQL. -/
theorem execSqlStatement {sql : String} (hs : ∀ target, P _ (snapshotTarget env target))
    (hq : P _ (Bqemulator.runQuery env p true sql)) :
    P _ (execSqlStatement env p sql) := by
  have ht : P _ (snapshotDmlTargets env p sql) := by
    rw [snapshotDmlTargets]
    induction dmlTargets (env.parseSql sql) p with
    | nil => exact logic.pure _
    | cons target r ih => exact logic.bind (hs target) fun _ => ih
  refine logic.bind ht fun _ => ?_
  split
  · exact logic.performFinal _ (fun _ => rfl) _
  split
  · exact logic.performFinal _ (fun _ => rfl) _
  split
  · exact logic.performFinal _ (fun _ => rfl) _
  · exact logic.bind (logic.perform _ fun _ => rfl) fun _ => logic.bind hq fun _ =>
      logic.bind (logic.setFinalTable _) fun _ =>
        logic.bind (logic.perform _ fun _ => rfl) fun _ => logic.pure _

end EffectLogic

namespace Logic

variable (logic : Logic env P)

include logic

/-- The property of `SET`. -/
theorem execSet (targets : List String) (s : String) :
    P _ (execSet env p targets s) := by
  rw [Bqemulator.execSet]
  split
  · exact logic.bind (logic.evalExprScalar _) fun _ => logic.assign _
  · refine logic.bind (logic.evalExprRow _) fun row => ?_
    split
    · exact logic.domain _
    · exact logic.assign _

theorem resolveRef : P _ (resolveRef env p ref) := by
  refine logic.lift _ fun s e he => ?_
  repeat' split at he
  all_goals first
    | cases he; done
    | exact ⟨_, (Except.error.inj he).symm⟩

theorem resolveCallRoutine : P _ (resolveCallRoutine env p ref) := by
  refine logic.bind (logic.resolveRef _) fun id => logic.lift _ fun s e he => ?_
  split at he
  · cases he
  · exact ⟨_, (Except.error.inj he).symm⟩

theorem execCreateFunction (stmt : CreateFunctionStmt) :
    P _ (execCreateFunction env p stmt) := by
  rw [Bqemulator.execCreateFunction]
  split
  · exact logic.bind (logic.perform _ fun _ => rfl) fun _ => logic.pure _
  · exact logic.bind (logic.resolveRef _) fun _ =>
      logic.bind (logic.perform _ fun _ => rfl) fun _ => logic.pure _

theorem execCreateProcedure (stmt : CreateProcedureStmt) :
    P _ (execCreateProcedure env p stmt) :=
  logic.bind (logic.resolveRef _) fun _ =>
    logic.bind (logic.perform _ fun _ => rfl) fun _ => logic.pure _

theorem runStatementWithParams (u : List Scalar) :
    P _ (runStatementWithParams env p sql u) := by
  rw [Bqemulator.runStatementWithParams]
  split
  · split
    · exact logic.domain _
    · exact logic.performFinal _ (fun _ => rfl) _
  · exact logic.query (fun _ => rfl) (fun _ => rfl) (fun _ => logic.setFinalTable _) logic.domain
      fun _ => logic.domain _

theorem execExecuteImmediate (sql : String) {i : List String} (u : List String)
    (hi : i ≠ [] → ∀ sql usingValues, P _ (Bqemulator.perform env fun s =>
      .runQueryWithParams p sql (allVisible s.frames) usingValues)) :
    P _ (execExecuteImmediate env p sql i u) := by
  refine logic.bind (logic.evalExprScalar _) fun value => ?_
  cases value with
  | string sql =>
    refine logic.bind (logic.evalExprs _) fun usingValues => ?_
    split
    · exact logic.runStatementWithParams _ _
    rename_i hn
    refine logic.bind (hi hn _ _) fun t => ?_
    split
    · exact logic.domain _
    · split
      · exact logic.domain _
      · exact logic.assign _
    · exact logic.domain _
  | _ => exact logic.domain _

theorem execCallRefreshMv : ∀ argExprs : List String, P _ (execCallRefreshMv env p argExprs)
  | [] => logic.domain _
  | _ :: _ :: _ => logic.domain _
  | [arg] => by
    refine logic.bind (logic.evalExprScalar _) fun value => ?_
    cases value with
    | string =>
      refine logic.bind ?_ fun _ => logic.performFinal _ (fun _ => rfl) _
      rw [refreshTarget]
      split
      · exact logic.pure _
      · exact logic.pure _
      · exact logic.domain _
    | _ => exact logic.domain _

theorem execSql (text : String) (ht : ∀ cause, P _ (handleTxnStatement env cause))
    (hs : ∀ sql, P _ (Bqemulator.execSqlStatement env p sql)) :
    P _ (execSql env p text) := by
  simp only [Bqemulator.execSql]
  split
  · exact logic.pure _
  split
  · exact logic.bind (ht _) fun _ => logic.setFinalTable _
  · exact hs _

end Logic

end Bqemulator
