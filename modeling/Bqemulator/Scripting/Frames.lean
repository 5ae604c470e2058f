import Bqemulator.Scripting.Ast

/-!
# Lexical frames

The variables of a script live in a stack of frames, here with the innermost frame first. `DECLARE`
binds a name in the innermost frame, `SET` assigns to the innermost frame that has the name.
-/

namespace Bqemulator

/-- A variable with its type and value. -/
structure Variable where
  typeName : String
  value : Value
deriving DecidableEq

inductive FrameKind where
  | root
  | block
  | loop
deriving DecidableEq

/-- A frame is a dictionary of variables. -/
structure Frame where
  kind : FrameKind
  vars : List (String × Variable) := []
deriving DecidableEq

variable (frame : Frame)

def Frame.names : List String :=
  frame.vars.map Prod.fst

variable (frames : List Frame)

/-- The names in each frame. -/
def shape : List (List String) :=
  frames.map Frame.names

/-- `DECLARE` binds a name in the innermost frame. -/
def declare (name : String) (v : Variable) : List Frame → Except DomainError (List Frame)
  | [] => .error (.invalidQuery "Internal error: declare without a frame")
  | current :: rest =>
    if name ∈ current.names then .error (.invalidQuery
      ("Variable " ++ Text.quoted name ++ " already declared in this scope"))
    else .ok ({ current with vars := current.vars ++ [(name, v)] } :: rest)

def declareAll (typeName : String) (value : Value) :
    List String → List Frame → List Frame × Option DomainError
  | [], frames => (frames, none)
  | name :: rest, frames =>
    match declare name { typeName, value } frames with
    | .error e => (frames, some e)
    | .ok frames' => declareAll typeName value rest frames'

def Frame.assign (name : String) (value : Value) : Frame :=
  { frame with vars := frame.vars.map fun x =>
      if x.1 = name then (x.1, { x.2 with value }) else x }

/-- `SET` assigns to the innermost frame that has the name. -/
def assign (name : String) (value : Value) : List Frame → Except DomainError (List Frame)
  | [] => .error (.invalidQuery ("Unknown variable: " ++ name))
  | frame :: rest =>
    if name ∈ frame.names then .ok (frame.assign name value :: rest)
    else (assign name value rest).map (frame :: ·)

def assignAll : List (String × Value) → List Frame → List Frame × Option DomainError
  | [], frames => (frames, none)
  | (name, value) :: rest, frames =>
    match assign name value frames with
    | .error e => (frames, some e)
    | .ok frames' => assignAll rest frames'

/-- Every variable that is visible, those of inner frames before those they shadow. -/
def allVisible : List (String × Variable) :=
  frames.reverse.foldl (fun d frame => frame.vars.foldl (fun d x => dictSet d x.1 x.2) d) []

def snapshotCurrent : List (String × Value) :=
  (allVisible frames).map fun x => (x.1, x.2.value)

/-! ## Names -/

/-- What a declaration does to the names. -/
theorem shape_declare {name : String} {v : Variable} {f f' : List Frame}
    (h : declare name v f = .ok f') :
    shape f' = (shape f).modifyHead (· ++ [name]) := by
  cases f with
  | nil => cases h
  | cons =>
    rw [declare] at h
    split at h
    · cases h
    · obtain rfl := Except.ok.inj h
      simp [shape, Frame.names]

/-- Several bindings add the names before the first that fails. -/
theorem shape_declareAll (typeName : String) (value : Value) (names : List String)
    (f : List Frame) : ∃ added, added <+: names ∧
      shape (declareAll typeName value names f).1 =
        (shape f).modifyHead (· ++ added) := by
  induction names generalizing f with
  | nil =>
    cases f <;> simp [declareAll, shape]
  | cons name r ih =>
    rw [declareAll]
    cases h : declare name { typeName, value } f with
    | error e =>
      refine ⟨[], List.nil_prefix, ?_⟩
      cases f <;> simp [shape]
    | ok f' =>
      obtain ⟨added, ha, hs⟩ := ih f'
      refine ⟨name :: added, (List.prefix_cons_inj name).2 ha, ?_⟩
      rw [hs, shape_declare h]
      cases shape f <;> simp

theorem names_assign (name : String) (value : Value) :
    (frame.assign name value).names = frame.names := by
  rw [Frame.names, Frame.assign, List.map_map, Frame.names]
  refine List.map_congr_left fun x _ => ?_
  by_cases hx : x.1 = name <;> simp [hx]

/-- An assignment changes no names. -/
theorem shape_assign {name : String} {value : Value} :
    ∀ {frames frames' : List Frame}, assign name value frames = .ok frames' →
      shape frames' = shape frames := by
  intro frames
  induction frames with
  | nil =>
    intro frames' h
    cases h
  | cons frame r ih =>
    intro frames' h
    rw [assign] at h
    split at h
    · obtain rfl := Except.ok.inj h
      simp [shape, names_assign]
    · obtain ⟨r', hr, rfl⟩ := Except.map_eq_ok_iff.1 h
      have := ih hr
      simp only [shape, List.map_cons] at this ⊢
      rw [this]

theorem shape_assignAll {v : List (String × Value)} :
    ∀ {frames : List Frame}, shape (assignAll v frames).1 = shape frames := by
  induction v with
  | nil => exact rfl
  | cons x r ih =>
    intro frames
    rw [assignAll]
    cases h : assign x.1 x.2 frames with
    | error e => rfl
    | ok => exact ih.trans (shape_assign h)

end Bqemulator
