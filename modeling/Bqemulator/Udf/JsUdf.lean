import Mathlib

/-!
# JavaScript functions

An argument goes to V8 and the result comes back. Integers and decimals go as strings only at the
top of a value. Below it an integer is a number of V8, and decimals and bytes are strings that
nothing reads again.
-/

namespace Bqemulator.JsUdf

open List

inductive TypeKind where
  | bool | int64 | float64 | numeric | bignumeric | string | bytes | array | struct

/-- A scalar on the Python side, with floats `F` and decimals `D`. -/
inductive PyScalar (F D : Type) where
  | none
  | bool (b : Bool)
  | int (n : ℤ)
  | float (x : F)
  | decimal (d : D)
  | str (s : String)
  | bytes (b : List UInt8)

inductive PyValue (F D : Type) where
  | scalar (x : PyScalar F D)
  | list (vs : List (PyValue F D))
  | dict (items : List (String × PyValue F D))

/-- What is used of Python and V8: texts that are read back, the encoding of bytes, and doubles. -/
structure JsEnv (D : Type) where
  readInt : String → Option ℤ
  readInt_repr n : readInt n.repr = some n
  decimalText : D → String
  readDecimal : String → Option D
  readDecimal_decimalText d : readDecimal (decimalText d) = some d
  b64encode : List UInt8 → String
  double : ℤ → ℤ

variable {F D : Type} (env : JsEnv D)

namespace PyScalar

/-- A value of a type of this kind. -/
def Fits : PyScalar F D → TypeKind → Prop
  | none, _ | bool _, .bool | int _, .int64 | float _, .float64 | decimal _, .numeric
  | decimal _, .bignumeric | str _, .string | bytes _, .bytes => True
  | _, _ => False

def toJsonValue : PyScalar F D → PyScalar F D
  | bytes b => str (env.b64encode b)
  | decimal d => str (env.decimalText d)
  | x => x

/-- Through V8: every number is a double. -/
def throughV8 : PyScalar F D → PyScalar F D
  | int n => int (env.double n)
  | x => x

def Survives : PyScalar F D → Prop
  | decimal _ | bytes _ => False
  | int n => env.double n = n
  | _ => True

theorem throughV8_toJsonValue (x : PyScalar F D) :
    (x.toJsonValue env).throughV8 env = x ↔ x.Survives env := by
  cases x <;> simp [toJsonValue, throughV8, Survives]

end PyScalar

namespace PyValue

def Fits : PyValue F D → TypeKind → Prop
  | scalar x, kind => x.Fits kind
  | list _, .array | dict _, .struct => True
  | _, _ => False

/-- A function on every scalar of a value. -/
def mapScalars (f : PyScalar F D → PyScalar F D) : PyValue F D → PyValue F D
  | scalar x => scalar (f x)
  | list vs => list (vs.map (mapScalars f))
  | dict items => dict (items.map fun e => (e.1, mapScalars f e.2))
decreasing_by
  · have := sizeOf_lt_of_mem ‹_›
    simp_wf
    omega
  · have := sizeOf_lt_of_mem ‹_›
    cases e
    simp at *
    omega

/-- A property of all scalars of a value. -/
inductive Every (P : PyScalar F D → Prop) : PyValue F D → Prop
  | scalar {x} (h : P x) : Every P (scalar x)
  | list {vs} (h : ∀ v ∈ vs, Every P v) : Every P (list vs)
  | dict {items} (h : ∀ e ∈ items, Every P e.2) : Every P (dict items)

theorem every_scalar {P : PyScalar F D → Prop} {x} : Every P (.scalar x) ↔ P x :=
  ⟨fun h => by cases h; assumption, .scalar⟩

theorem map_eq_self_iff {α : Type} {f : α → α} {l : List α} : l.map f = l ↔ ∀ a ∈ l, f a = a := by
  simpa using map_inj_left (f := f) (g := id) (l := l)

theorem mapScalars_mapScalars (f g : PyScalar F D → PyScalar F D) (v : PyValue F D) :
    (v.mapScalars f).mapScalars g = v.mapScalars (g ∘ f) := by
  fun_induction mapScalars f v with
  | case1 x => rw [mapScalars, mapScalars]; rfl
  | case2 vs ih => simpa [mapScalars] using ih
  | case3 items ih => simpa [mapScalars] using ih

theorem mapScalars_eq_self_iff {f : PyScalar F D → PyScalar F D} {P : PyScalar F D → Prop}
    (hf : ∀ x, f x = x ↔ P x) (v : PyValue F D) : v.mapScalars f = v ↔ v.Every P := by
  fun_induction mapScalars f v with
  | case1 x =>
    rw [scalar.injEq, hf, every_scalar]
  | case2 vs ih =>
    rw [list.injEq, map_eq_self_iff]
    exact ⟨fun h => .list fun v hv => (ih v hv).1 (h v hv),
      fun h v hv => (ih v hv).2 (by cases h with | list h => exact h v hv)⟩
  | case3 items ih =>
    rw [dict.injEq, map_eq_self_iff]
    refine ⟨fun h => .dict fun e he => (ih e he).1 (congrArg Prod.snd (h e he)),
      fun h e he => Prod.ext rfl ((ih e he).2 ?_)⟩
    cases h with
    | dict h => exact h e he

/-- **What comes back**: at the top anything but bytes, and below it what passes V8. -/
def Survives : PyValue F D → Prop
  | scalar (.int _) | scalar (.decimal _) => True
  | v => v.Every (·.Survives env)

/-- `_coerce_arg_for_js`. -/
def coerceArgForJs (kind : TypeKind) : PyValue F D → PyValue F D
  | scalar (.int n) =>
    match kind with
    | .int64 | .numeric | .bignumeric => scalar (.str n.repr)
    | _ => scalar (.int n)
  -- a decimal is written as its text in any case
  | v => v.mapScalars (·.toJsonValue env)

/-- `_coerce_return_from_js`: a text that cannot be read is returned. -/
def coerceReturnFromJs (kind : TypeKind) : PyValue F D → PyValue F D
  | scalar (.str s) =>
    match kind with
    | .int64 => scalar ((env.readInt s).elim (.str s) .int)
    | .numeric | .bignumeric => scalar ((env.readDecimal s).elim (.str s) .decimal)
    | _ => scalar (.str s)
  | v => v

/-- `_invoke_routine`, with the body of the function. -/
def invokeRoutine (body : PyValue F D → PyValue F D) (kind : TypeKind) (v : PyValue F D) :
    PyValue F D :=
  coerceReturnFromJs env kind (body ((coerceArgForJs env kind v).mapScalars (·.throughV8 env)))

/-- **The identity** returns its argument iff there are no bytes in it, no decimal below the top,
and no integer below the top that is not a double. -/
theorem invokeRoutine_id_iff {kind : TypeKind} {v : PyValue F D} (hv : v.Fits kind) :
    invokeRoutine env id kind v = v ↔ v.Survives env := by
  have hm : (v.mapScalars (·.toJsonValue env)).mapScalars (·.throughV8 env) = v ↔
      v.Every (·.Survives env) := by
    rw [mapScalars_mapScalars]
    exact mapScalars_eq_self_iff (·.throughV8_toJsonValue env) v
  cases v with
  | scalar x =>
    -- the kind decides over the strings
    cases x <;> cases kind <;> first
      | exact hv.elim
      | simp [invokeRoutine, coerceArgForJs, coerceReturnFromJs, mapScalars, PyScalar.throughV8,
          PyScalar.toJsonValue, Survives, PyScalar.Survives, every_scalar, env.readInt_repr,
          env.readDecimal_decimalText]
  | list | dict =>
    simp only [mapScalars] at hm
    simp only [invokeRoutine, coerceArgForJs, mapScalars]
    exact hm

/-- Integers as decimals. Base64 is only asked for one byte, and doubles for none. -/
def oneByteEnv : JsEnv ℤ := ⟨String.toInt?, Int.toInt?_repr, Int.repr, String.toInt?,
  Int.toInt?_repr, fun _ => "AQ==", id⟩

theorem invokeRoutine_id_int :
    let v : PyValue ℤ ℤ := scalar (.int 9007199254740993)
    invokeRoutine oneByteEnv id .int64 v = v :=
  (invokeRoutine_id_iff oneByteEnv (show Fits (scalar (.int _)) .int64 from trivial)).2 trivial

theorem invokeRoutine_id_bytes :
    let v : PyValue ℤ ℤ := scalar (.bytes [1])
    invokeRoutine oneByteEnv id .bytes v ≠ v := by
  simp [invokeRoutine, coerceArgForJs, coerceReturnFromJs, mapScalars, PyScalar.throughV8,
    PyScalar.toJsonValue]

end PyValue

end Bqemulator.JsUdf
