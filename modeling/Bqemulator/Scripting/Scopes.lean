import Bqemulator.Scripting.Rules

/-!
# Scoping

A statement should leave the stack of frames as it found it, up to the values of variables and the
names it declares. Blocks, `WHILE` and `LOOP` close their frame however they end; `FOR` only when
its body ends, breaks or continues. Otherwise the block around it closes that frame instead of its
own.
-/

namespace Bqemulator

open Comp List

variable {σ : Type}

/-- The stack after a statement is the one before it, with the names it declares. -/
def Stmt.KeepsFrames (stmt : Stmt) (before after : List Frame) : Prop :=
  ∃ added, added <+: stmt.declares ∧ shape after = (shape before).modifyHead (· ++ added)

/-- The event of a `FOR` body being left by an exception that the loop does not catch. -/
def Event.isLeftFor : Event σ → Bool
  | .leftFor => true
  | _ => false

/-- How often the body of a `FOR` loop was left by an exception it does not catch. -/
def leaks (trace : List (Event σ)) : Nat :=
  trace.countP Event.isLeftFor

theorem leaks_append (t t' : List (Event σ)) : leaks (t ++ t') = leaks t + leaks t' :=
  countP_append

variable {t : List (Event σ)}

theorem leaks_eq_zero_iff : leaks t = 0 ↔ ∀ e ∈ t, e.isLeftFor = false := by
  simp [leaks]

/-! ## Stacks that grow -/

/-- A stack grows by some frames on top of it. -/
def Grown (n : Nat) (before after : List (List String)) : Prop :=
  ∃ extra, extra.length = n ∧ after = extra ++ before

/-- A stack grows by some frames on top of it, and its innermost frame by some names. -/
def GrownIn (n : Nat) (before after : List (List String)) : Prop :=
  ∃ added, Grown n (before.modifyHead (· ++ added)) after

theorem grown_refl (S : List (List String)) : Grown 0 S S := ⟨[], rfl, rfl⟩

variable {n : Nat} {S S' : List (List String)} {names : List String} {S'' : List (List String)}
  {s s' : Interp σ} {body : ScriptM σ Unit}

theorem Grown.trans {m : Nat} (h : Grown n S S') (h' : Grown m S' S'') : Grown (n + m) S S'' := by
  obtain ⟨e, rfl, rfl⟩ := h
  obtain ⟨e', rfl, rfl⟩ := h'
  exact ⟨e' ++ e, by simp [Nat.add_comm], by simp⟩

theorem Grown.grownIn (h : Grown n S S') : GrownIn n S S' := by
  refine ⟨[], ?_⟩
  cases S <;> simpa using h

theorem modifyHead_grown (h : Grown n S S') (a : List String) :
    GrownIn n S (S'.modifyHead (· ++ a)) := by
  obtain ⟨e, rfl, rfl⟩ := h
  cases e with
  | nil => exact ⟨a, grown_refl _⟩
  | cons frame r => exact Grown.grownIn ⟨(frame ++ a) :: r, rfl, rfl⟩

theorem GrownIn.trans {m : Nat} (h : GrownIn n S S') (h' : GrownIn m S' S'') :
    GrownIn (n + m) S S'' := by
  obtain ⟨a, ha⟩ := h
  obtain ⟨a', ha'⟩ := h'
  obtain ⟨names, hn⟩ := modifyHead_grown ha a'
  refine ⟨a ++ names, ?_⟩
  have hh : (S.modifyHead (· ++ a)).modifyHead (· ++ names) =
      S.modifyHead (· ++ (a ++ names)) := by
    cases S <;> simp
  rw [← hh]
  exact hn.trans ha'

theorem GrownIn.tail (h : GrownIn n (names :: S) S') : Grown n S S'.tail := by
  obtain ⟨a, e, rfl, rfl⟩ := h
  cases e with
  | nil => exact grown_refl S
  | cons frame r =>
    exact ⟨r ++ [names ++ a], by simp, by simp⟩

theorem GrownIn.open_ (h : GrownIn n (names :: S) S') : Grown (n + 1) S S' := by
  obtain ⟨a, e, rfl, rfl⟩ := h
  exact ⟨e ++ [names ++ a], by simp, by simp⟩

theorem shape_tail (f : List Frame) : shape f.tail = (shape f).tail := by
  cases f <;> rfl

/-! ## The interpreter -/

def Leaky : RunRel σ := fun s t s' => Grown (leaks t) (shape s.frames) (shape s'.frames)

def LeakyIn : RunRel σ := fun s t s' => GrownIn (leaks t) (shape s.frames) (shape s'.frames)

theorem leaky_sequential : Sequential (Leaky (σ := σ)) where
  refl _ := grown_refl _
  trans {_ _ _ t t'} h h' := by
    rw [Leaky, leaks_append]
    exact Grown.trans h h'

theorem leakyIn_sequential : Sequential (LeakyIn (σ := σ)) where
  refl _ := (grown_refl _).grownIn
  trans {_ _ _ t t'} h h' := by
    rw [LeakyIn, leaks_append]
    exact GrownIn.trans h h'

theorem Leaky.of_shape (ht : leaks t = 0) (hs : shape s'.frames = shape s.frames) :
    Leaky s t s' := by
  rw [Leaky, ht, hs]
  exact grown_refl _

theorem leaky_inFrame (frame : Frame) (h : Respects LeakyIn body) :
    Respects Leaky (inFrame frame body) := by
  intro s
  have hb := h { s with frames := frame :: s.frames }
  rw [Leaky, show (inFrame frame body s).state.frames =
    (body { s with frames := frame :: s.frames }).state.frames.tail by rfl, shape_tail]
  exact GrownIn.tail hb

theorem iterateFor_cases (l : String) (row : List (String × Scalar)) (body : ScriptM σ Unit)
    (s : Interp σ) :
    let o := body { s with
      frames := .single .loop l "STRUCT" (.struct row) :: s.frames }
    let o' := iterateFor l row body s
    (o'.trace = o.trace ∧ o'.state = o.state.pop) ∨
      (o'.trace = o.trace ++ [.leftFor] ∧ o'.state = o.state) := by
  intro o o'
  have ho : ∀ c : ScriptM σ Bool, (push (.single .loop l "STRUCT" (.struct row)) >>=
      fun _ => c) s = c { s with
        frames := .single .loop l "STRUCT" (.struct row) :: s.frames } := fun c => rfl
  simp only [o', iterateFor, ho]
  cases hr : o.result with
  | ok u =>
    rw [run_tryCatch_of_ok (a := true) (by rw [run_bind_of_ok hr]; rfl), run_bind_of_ok hr]
    exact .inl ⟨append_nil _, rfl⟩
  | error e =>
    rw [run_tryCatch_of_error (e := e) (by rw [run_bind_of_error hr]), run_bind_of_error hr]
    cases e with
    | break_ | continue_ => exact .inl ⟨append_nil _, rfl⟩
    | _ => exact .inr ⟨rfl, rfl⟩

theorem leaky_iterateFor (l : String) (row : List (String × Scalar))
    (h : Respects LeakyIn body) : Respects Leaky (iterateFor l row body) := by
  intro s
  have hb := h { s with frames := .single .loop l "STRUCT" (.struct row) :: s.frames }
  rcases iterateFor_cases l row body s with ⟨ht, hs⟩ | ⟨ht, hs⟩
  · rw [Leaky, ht, hs, Interp.pop, shape_tail]
    exact GrownIn.tail hb
  · rw [Leaky, ht, hs, leaks_append]
    exact GrownIn.open_ hb

variable (env : ScriptEnv σ)

theorem leaks_snapshotTarget (target : String × String) (s : Interp σ) :
    leaks (snapshotTarget env target s).trace = 0 ∧
      (snapshotTarget env target s).state.frames = s.frames := by
  rcases snapshotTarget_cases env target s with ⟨h, -⟩ | ⟨b, after, -, -, -, h⟩
  · rw [h]
    exact ⟨rfl, rfl⟩
  · rw [h]
    exact ⟨rfl, rfl⟩

theorem leaks_countStatement (s : Interp σ) :
    leaks (countStatement env s).trace = 0 ∧ (countStatement env s).state.frames = s.frames := by
  rw [countStatement]
  split <;> exact ⟨rfl, rfl⟩

theorem leaks_invokeProcedure (d : Nat) (r : Procedure) (a : List Scalar)
    (s : Interp σ) :
    leaks (invokeProcedure env d r a s).trace = 0 ∧
      (invokeProcedure env d r a s).state.frames = s.frames := by
  cases d with
  | zero => exact ⟨rfl, rfl⟩
  | succ =>
    rw [invokeProcedure]
    cases calleeFrames r.arguments a with
    | error e => exact ⟨rfl, rfl⟩
    | ok =>
      simp only [nested]
      split <;> exact ⟨rfl, rfl⟩

/-- Each action of the interpreter grows the stack by its leaks. -/
theorem scopes_rule (e : ScriptEnv σ) (d : Nat) :
    Rule e (invokeProcedure e d) Leaky LeakyIn where
  seqN := leaky_sequential
  seqR := leakyIn_sequential
  le h := Grown.grownIn h
  attempt _ _ _ := .of_shape rfl rfl
  setFinalTable _ _ := .of_shape rfl rfl
  assign _ _ := .of_shape rfl shape_assignAll
  declare typeName value names s := by
    obtain ⟨a, -, ha⟩ := shape_declareAll typeName value names s.frames
    exact ⟨a, ha ▸ grown_refl _⟩
  inFrame frame _ h := leaky_inFrame frame h
  iterateFor loopVar row _ h := leaky_iterateFor loopVar row h
  count s := .of_shape (leaks_countStatement e s).1
    (congrArg shape (leaks_countStatement e s).2)
  beginTxn _ := .of_shape rfl rfl
  dropTxn _ _ _ := .of_shape rfl rfl
  restoreTxn _ _ _ := .of_shape rfl rfl
  execSqlStatement := respects_execSqlStatement leaky_sequential
    (fun _ _ => .of_shape rfl rfl) (fun _ _ => .of_shape rfl rfl) fun target s =>
      Leaky.of_shape (leaks_snapshotTarget e target s).1
        (congrArg shape (leaks_snapshotTarget e target s).2)
  invoke routine args s := .of_shape (leaks_invokeProcedure e d routine args s).1
    (congrArg shape (leaks_invokeProcedure e d routine args s).2)

/-! ## Statements -/

def Still : RunRel σ := fun s t s' => leaks t = 0 ∧ shape s'.frames = shape s.frames

theorem still_rule : EffectRule env Still where
  seqN := {
    refl _ := ⟨rfl, rfl⟩
    trans h h' := ⟨by rw [leaks_append, h.1, h'.1], h'.2.trans h.2⟩ }
  attempt _ _ _ := ⟨rfl, rfl⟩

def Declaring (names : List String) : RunRel σ := fun s t s' =>
  leaks t = 0 ∧ ∃ added, added <+: names ∧
    shape s'.frames = (shape s.frames).modifyHead (· ++ added)

theorem Still.declaring (h : Still s t s') (names : List String) : Declaring names s t s' := by
  refine ⟨h.1, [], nil_prefix, ?_⟩
  rw [h.2]
  cases shape s.frames <;> simp

theorem Still.trans_declaring {s'' : Interp σ} {t' : List (Event σ)} (h : Still s t s')
    (h' : Declaring names s' t' s'') : Declaring names s (t ++ t') s'' := by
  obtain ⟨hl, a, ha, hs⟩ := h'
  exact ⟨by rw [leaks_append, h.1, hl], a, ha, by rw [hs, h.2]⟩

theorem still_countStatement : Respects Still (countStatement env) :=
  fun s => ⟨(leaks_countStatement env s).1, congrArg shape (leaks_countStatement env s).2⟩

theorem declaring_execDeclare (e : ScriptEnv σ) (p : String) (names : List String)
    (t : String) (d : Option String) :
    Respects (Declaring names) (counted e (execDeclare e p names t d)) :=
  Respects.bind_of (still_countStatement e)
    (fun _ => .bind_of ((still_rule e).exprLogic.evalOptional d)
      (fun value s => ⟨rfl, shape_declareAll t (.scalar value) names s.frames⟩)
      (fun h => h.declaring names) fun h h' => h.trans_declaring h')
    (fun h => h.declaring names) fun h h' => h.trans_declaring h'

/-- **Scoping of statements**: a statement keeps the frames, however it ends, iff it does not leave
the body of a `FOR` loop by an exception other than `BREAK` and `CONTINUE`. -/
theorem execStatement_keepsFrames_iff (env : ScriptEnv σ) (project : String) (depth : Nat)
    (stmt : Stmt) (s : Interp σ) :
    stmt.KeepsFrames s.frames
        (execStatement env project (invokeProcedure env depth) stmt s).state.frames ↔
      ∀ e ∈ (execStatement env project (invokeProcedure env depth) stmt s).trace,
        e.isLeftFor = false := by
  rw [← leaks_eq_zero_iff]
  cases hd : stmt.isDeclare with
  | true =>
    cases stmt with
    | declare names t d =>
      have h := declaring_execDeclare env project names t d s
      exact iff_of_true h.2 h.1
    | _ => cases hd
  | false =>
    have hr := scopes_rule env depth
    have hst : Respects Leaky (execStatement env project (invokeProcedure env depth) stmt) :=
      hr.counted (hr.dispatchN stmt hd)
    obtain ⟨exn, he, hs⟩ := hst s
    rw [← he, length_eq_zero_iff]
    constructor
    · rintro ⟨a, -, ha⟩
      -- a stack that has grown has more frames than before
      rw [hs] at ha
      have hl := congrArg length ha
      simpa using hl
    · rintro rfl
      refine ⟨[], nil_prefix, ?_⟩
      rw [hs]
      cases shape s.frames <;> simp

def caughtInFor : Stmt :=
  .begin_ [.declare ["x"] "INT64" none, .forIn "r" "(SELECT 1)" [.raise none]] (some [])

def fresh : Interp Unit where
  frames := [{ kind := .root }]
  world := ()

/-- **The block ends normally**, and its variable stays visible: the frame that is closed at its end
is that of the loop. -/
theorem caughtInFor_leaks :
    let env := ScriptEnv.blank 10 (fun _ => .ok []) []
    let o := execStatement env "p" (invokeProcedure env 0) caughtInFor fresh
    o.result = .ok () ∧ (allVisible o.state.frames).map Prod.fst = ["x"] ∧
      ¬ caughtInFor.KeepsFrames fresh.frames o.state.frames := by
  refine ⟨by decide, by decide, ?_⟩
  rintro ⟨a, -, ha⟩
  have hl := congrArg length ha
  revert hl
  rw [length_modifyHead]
  decide

end Bqemulator
