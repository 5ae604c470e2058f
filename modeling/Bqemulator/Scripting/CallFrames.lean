import Bqemulator.Scripting.Assignments
import Bqemulator.Scripting.Scopes

/-!
# Arguments of calls

A procedure runs in frames of its own, and its `OUT` and `INOUT` parameters are written back when it
ends: the innermost variable of that name, which may be one of a `FOR` loop that is left by `RETURN`
with its frame open. -/

namespace Bqemulator

open Comp List

variable {σ : Type} {env : ScriptEnv σ} {project : String} {depth : Nat} {ref : String}
  {argExprs : List String} {s : Interp σ} {routine : Procedure} {frames : List Frame}

def callerVar (argument : (String × ParamMode) × String) : Option String :=
  if argument.1.2 ≠ .input ∧ Text.isIdentifier (Text.strip argument.2)
    then some (Text.strip argument.2)
  else none

def callerVars (routine : Procedure) (argExprs : List String) : List (Option String) :=
  (routine.arguments.zip argExprs).map callerVar

/-- The run of the body. -/
def calleeRun (env : ScriptEnv σ) (depth : Nat) (routine : Procedure)
    (frames : List Frame) (w : σ) :
    Outcome (Event σ) Exn (Interp σ) ScriptResult :=
  runScript env routine.projectId (invokeProcedure env depth) routine.definitionBody
    { frames, world := w }

def endsBody : Except Exn ScriptResult → Bool
  | .ok _ | .error (.return_ _) => true
  | _ => false

/-- The call reaches the body. -/
structure CallReaches (env : ScriptEnv σ) (project ref : String) (argExprs : List String)
    (s : Interp σ) (routine : Procedure) (frames : List Frame) (s' : Interp σ) : Prop where
  procedure : Text.upper ref ≠ "BQ.REFRESH_MATERIALIZED_VIEW"
  resolved : (resolveCallRoutine env project ref s).result = .ok routine
  arity : argExprs.length = routine.arguments.length
  bound : ∃ arguments, Yields (evaluateCallArguments env project (routine.arguments.zip argExprs)) s
    arguments s' ∧ calleeFrames routine.arguments (arguments.map Prod.fst) = .ok frames

/-- The assignments that give each `OUT` and `INOUT` argument the value of its parameter in a
stack. -/
def assignedFrom (routine : Procedure) (argExprs : List String) (frames : List Frame) :
    List (String × Value) :=
  writebacks routine.arguments (callerVars routine argExprs) (snapshotCurrent frames)

/-- **What a call does to the variables of the caller**: the body sees the world and the arguments
only; when it ends, `OUT` and `INOUT` arguments hold what the parameters hold; no other variable
changes, and none when it fails. -/
structure CallContract (env : ScriptEnv σ) (project : String) (depth : Nat) (ref : String)
    (argExprs : List String) (s : Interp σ) (routine : Procedure) (frames : List Frame)
    (s' : Interp σ) : Prop where
  isolated : ∀ args (t : Interp σ), t.world = s'.world →
    (invokeProcedure env (depth + 1) routine args t).result =
      (invokeProcedure env (depth + 1) routine args s').result
  input : ∀ m, some m ∉ callerVars routine argExprs →
    lookup m (execCall env project (invokeProcedure env (depth + 1)) ref argExprs s).state.frames =
      lookup m s.frames
  output : endsBody (calleeRun env depth routine frames s'.world).result = true →
    ∀ x ∈ assignedFrom routine argExprs
      ((calleeRun env depth routine frames s'.world).state.frames.getLast?.toList),
      lookup x.1
        (execCall env project (invokeProcedure env (depth + 1)) ref argExprs s).state.frames =
        some x.2
  failed : endsBody (calleeRun env depth routine frames s'.world).result = false → ∀ m,
    lookup m (execCall env project (invokeProcedure env (depth + 1)) ref argExprs s).state.frames =
      lookup m s.frames

/-! ## The frames after a call -/

theorem snd_evaluateCallArguments {args : List ((String × ParamMode) × String)}
    {v : List (Scalar × Option String)} {s' : Interp σ}
    (h : Yields (evaluateCallArguments env project args) s v s') :
    v.map Prod.snd = args.map callerVar := by
  induction args generalizing v s s' with
  | nil =>
    obtain ⟨h, -⟩ := h
    cases h
    rfl
  | cons a r ih =>
    obtain ⟨⟨name, m⟩, e⟩ := a
    obtain ⟨value, _, ho, hm⟩ := yields_bind_iff.1 h
    obtain ⟨mode, _, hr, hp⟩ := yields_bind_iff.1 hm
    cases hp.1
    rw [map_cons, map_cons, ih hr]
    cases m with
    | output =>
      cases ho.1
      simp [callerVar]
    | input | inout =>
      obtain ⟨_, _, -, hv⟩ := yields_bind_iff.1 ho
      cases hv.1
      simp [callerVar]

/-- The frames of the caller after a call that reaches the body. -/
theorem execCall_frames {s' : Interp σ}
    (h : CallReaches env project ref argExprs s routine frames s') :
    (execCall env project (invokeProcedure env (depth + 1)) ref argExprs s).state.frames =
      if endsBody (calleeRun env depth routine frames s'.world).result then
        (assignAll (assignedFrom routine argExprs
          (calleeRun env depth routine frames s'.world).state.frames) s.frames).1
      else s.frames := by
  obtain ⟨a, hy, hb⟩ := h.bound
  have hre : (resolveCallRoutine env project ref s).state = s := by
    simp only [resolveCallRoutine, bind_eq, andThen]
    split <;> rfl
  have hf : s'.frames = s.frames := by
    rw [← hy.2]
    exact (Assignment.frames_logic env).evaluateCallArguments _ s
  have hv : a.map Prod.snd = callerVars routine argExprs := snd_evaluateCallArguments hy
  rw [execCall, if_neg h.procedure, run_bind_of_ok h.resolved, hre,
    if_neg (not_not.2 h.arity), run_bind_of_ok hy.1, hy.2, hv]
  simp only [invokeProcedure, hb, bind_eq, andThen, nested, calleeRun, ← hf]
  rcases hr : (runScript env routine.projectId (invokeProcedure env depth) routine.definitionBody
    { frames, world := s'.world }).result with (_ | _ | _ | _ | _ | _) | _ <;> rfl

/-! ## The contract -/

theorem lastOf_eq_none {l : List (String × Value)} {m : String} (h : m ∉ l.map Prod.fst) :
    lastOf l m = none := by
  induction l with
  | nil => rfl
  | cons x r ih =>
    rw [map_cons, mem_cons, not_or] at h
    simp [lastOf, ih h.2, h.1]

theorem mem_callerVars {x : String × Value} {s : List Frame}
    (h : x ∈ assignedFrom routine argExprs s) : some x.1 ∈ callerVars routine argExprs := by
  obtain ⟨⟨name, p⟩, hm, hx⟩ := mem_filterMap.1 h
  obtain ⟨v, rfl, hx⟩ := Option.bind_eq_some_iff.1 hx
  obtain ⟨y, -, rfl⟩ := Option.map_eq_some_iff.1 hx
  exact (of_mem_zip hm).1

/-! ## Unshadowed parameters -/

theorem find?_dictSet_of_ne {α : Type} {d : List (String × α)} {key name : String} {value : α}
    (h : key ≠ name) :
    (dictSet d key value).find? (fun x => x.1 = name) = d.find? fun x => x.1 = name := by
  induction d with
  | nil => simp [dictSet, h]
  | cons x rest ih =>
    rw [dictSet]
    split
    · next hx => simp [hx, h]
    · rw [find?_cons, find?_cons, ih]

/-- A frame without a name leaves what a dictionary holds under the name. -/
theorem find?_dictSet_frame {d : List (String × Variable)} {vars : List (String × Variable)}
    {name : String} (h : name ∉ vars.map Prod.fst) :
    (vars.foldl (fun d x => dictSet d x.1 x.2) d).find? (fun x => x.1 = name) =
      d.find? fun x => x.1 = name := by
  induction vars generalizing d with
  | nil => rfl
  | cons x rest ih =>
    rw [map_cons, mem_cons, not_or] at h
    rw [foldl_cons, ih h.2, find?_dictSet_of_ne (Ne.symm h.1)]

/-- A name that no inner frame has is read from the outermost frame. -/
theorem find?_snapshotCurrent {frames : List Frame} {name : String}
    (h : ∀ frame ∈ frames.dropLast, name ∉ frame.names) :
    (snapshotCurrent frames).find? (fun x => x.1 = name) =
      (snapshotCurrent frames.getLast?.toList).find? fun x => x.1 = name := by
  rcases eq_nil_or_concat frames with rfl | ⟨inner, root, rfl⟩
  · rfl
  rw [concat_eq_append, dropLast_concat] at h
  rw [concat_eq_append, getLast?_concat, Option.toList_some, snapshotCurrent, snapshotCurrent,
    find?_map, find?_map]
  congr 1
  simp only [allVisible, reverse_append, reverse_singleton, singleton_append, foldl_cons, foldl_nil]
  generalize root.vars.foldl _ [] = d
  -- the inner frames are folded in from the outside
  induction inner using reverseRecOn generalizing d with
  | nil => rfl
  | append_singleton inner frame ih =>
    rw [reverse_append, reverse_singleton, singleton_append, foldl_cons,
      ih (fun frame' hf => h frame' (mem_append_left _ hf))]
    exact find?_dictSet_frame (h frame (mem_append_right _ mem_cons_self))

theorem writebacks_congr {values values' : List (String × Value)} :
    ∀ (params : List (String × ParamMode)) (argExprs : List String),
      (∀ param ∈ params, param.2 ≠ .input →
        values.find? (fun x => x.1 = param.1) = values'.find? fun x => x.1 = param.1) →
      writebacks params ((params.zip argExprs).map callerVar) values =
        writebacks params ((params.zip argExprs).map callerVar) values'
  | [], _, _ => rfl
  | _ :: _, [], _ => rfl
  | param :: params, expr :: argExprs, h => by
    have ih := writebacks_congr params argExprs fun q hq => h q (mem_cons_of_mem _ hq)
    rw [writebacks, writebacks] at ih
    simp only [writebacks, zip_cons_cons, map_cons, filterMap_cons, ih]
    by_cases hm : param.2 = .input
    · simp [callerVar, hm]
    · rw [h param mem_cons_self hm]

theorem writebacks_sublist (values : List (String × Value)) :
    ∀ (names : List (Option String)) (params : List (String × ParamMode)),
      (writebacks params names values).map Prod.fst <+ names.reduceOption
  | [], _ => by simp [writebacks]
  | _ :: _, [] => by simp [writebacks]
  | none :: names, _ :: params => by
    simpa [writebacks] using writebacks_sublist values names params
  | some name :: names, param :: params => by
    have ih := writebacks_sublist values names params
    cases hv : values.find? fun x => x.1 = param.1 with
    | none => simpa [writebacks, hv] using ih.cons name
    | some => simpa [writebacks, hv] using ih.cons_cons name

theorem lastOf_of_nodup {l : List (String × Value)} (h : (l.map Prod.fst).Nodup)
    {x : String × Value} (hx : x ∈ l) : lastOf l x.1 = some x.2 := by
  induction l with
  | nil => cases hx
  | cons y rest ih =>
    rw [map_cons, nodup_cons] at h
    rcases mem_cons.1 hx with rfl | hx
    · simp [lastOf, lastOf_eq_none h.1]
    · simp [lastOf, ih h.2 hx]

def outProcedure : Procedure where
  projectId := "p"
  routineId := "q"
  arguments := [("x", .output)]
  definitionBody := "b"

def outFrames : List Frame := [.single .root "x" "ANY" (.scalar .null)]

/-- An environment in which `d.q` has a given body, and every query yields `TRUE`. -/
def outEnv (body : List Stmt) : ScriptEnv Unit :=
  .blank 10 (fun _ => .ok body) [(⟨"p", "d", "q"⟩, outProcedure)]

def oneVariable : Interp Unit where
  frames := [.single .root "v" "BOOL" (.scalar (.bool false))]
  world := ()

end Bqemulator
