import Bqemulator.Lib.TreePass

/-!
# Constructs that a pass of the translator removes

Four passes remove constructs that DuckDB does not know. Each lists the nodes of the query, parents
first, and replaces those of its construct by trees made of copies. An occurrence inside of another
one is copied before its turn comes, and stays.
-/

namespace Bqemulator

open SyntaxTree List

/-! ## Queries -/

/-- The kinds of nodes that the passes look at. -/
inductive Construct where
  | safeFunc
  | sha2
  | struct
  | propertyEq
  | ignoreNulls
  | arrayAgg
  | groupConcat
  | limit
  | order
  | anonymous (name : String)
  | filter
  | where_
  | not_
  | is_
  | null
  | other (kind : String)
deriving DecidableEq

/-- The names of a node's arguments. -/
inductive ArgName where
  | this
  | expression
  | expressions
  | length
  | separator
  | other (name : String)
deriving DecidableEq

/-- The leaves of a query. -/
inductive Word where
  | name (text : String)
  | literal (text : String)
deriving DecidableEq

/-- The expressions and clauses of a query. -/
abbrev QueryTree := SyntaxTree Construct ArgName Word

/-- **A parsed query.** -/
structure ParsedQuery where
  kind : String
  args : List (ArgName × QueryTree)

def ParsedQuery.tree (q : ParsedQuery) : QueryTree := .node (.other q.kind) q.args

/-- A call of a function by its name. -/
def anonymous (name : String) (expressions : List QueryTree) : QueryTree :=
  .node (.anonymous name) (expressions.map fun e => (.expressions, e))

/-! ## The rules -/

/-- `SAFE.f(x)` becomes `TRY(f(x))`. -/
def safeRule : QueryTree → Option QueryTree
  | .node .safeFunc [(.this, inner)] => some (anonymous "TRY" [inner])
  | _ => none

def isOtherLength : QueryTree → Bool
  | .leaf (.literal text) => text ≠ "512"
  | _ => false

/-- `SHA512(x)` becomes a call of the emulator's function. -/
def sha512Rule : QueryTree → Option QueryTree
  | .node .sha2 [(.this, operand), (.length, length)] =>
    if isOtherLength length then none else some (anonymous "bqemu_sha512" [operand])
  | _ => none

def isPropertyEq : QueryTree → Bool
  | .node .propertyEq _ => true
  | _ => false

def structFields (args : List (ArgName × QueryTree)) : List QueryTree :=
  (args.filter fun a => a.1 = .expressions).map Prod.snd

/-- `STRUCT` of values becomes a call with its fields. -/
def structRule : QueryTree → Option QueryTree
  | .node .struct args =>
    if (structFields args).isEmpty || (structFields args).any isPropertyEq then none
    else some (anonymous "ROW" (structFields args))
  | _ => none

/-- The value whose nulls are left out. -/
def filterTarget : QueryTree → QueryTree
  | .node .order ((.this, value) :: _) => value
  | operand => operand

def arrayAgg (operand : QueryTree) : QueryTree := .node .arrayAgg [(.this, operand)]

def withoutNulls (agg target : QueryTree) : QueryTree :=
  .node .filter [(.this, agg), (.expression, .node .where_ [(.this, .node .not_
    [(.this, .node .is_ [(.this, target), (.expression, .node .null [])])])])]

/-- `ARRAY_AGG(x IGNORE NULLS)` becomes `ARRAY_AGG(x) FILTER (WHERE NOT x IS NULL)`. -/
def ignoreNullsRule : QueryTree → Option QueryTree
  | .node .ignoreNulls [(.this, .node .arrayAgg [(.this, operand)])] =>
    some (withoutNulls (arrayAgg operand) (filterTarget operand))
  | _ => none

def slicedAgg (inner count : QueryTree) : QueryTree :=
  anonymous "ARRAY_SLICE" [arrayAgg inner, .leaf (.literal "1"), count]

/-- `ARRAY_AGG` with a `LIMIT` becomes a slice. -/
def arrayAggLimitRule : QueryTree → Option QueryTree
  | .node .arrayAgg [(.this, .node .limit [(.this, inner), (.expression, count)])] =>
    some (slicedAgg inner count)
  | _ => none

/-- `STRING_AGG` with a `LIMIT` becomes a join of a slice. -/
def stringAggLimitRule : QueryTree → Option QueryTree
  | .node .groupConcat [(.this, .node .limit [(.this, inner), (.expression, count)])] =>
    some (anonymous "ARRAY_TO_STRING" [slicedAgg inner count, .leaf (.literal ",")])
  | .node .groupConcat [(.this, .node .limit [(.this, inner), (.expression, count)]),
      (.separator, separator)] =>
    some (anonymous "ARRAY_TO_STRING" [slicedAgg inner count, separator])
  | _ => none

/-! ## The passes -/

section Passes

variable (walk : QueryTree → List Position)

/-- A pass that runs if the text mentions its construct. -/
def rewriteMentioned (rule : QueryTree → Option QueryTree) (mentioned : Bool) (t : QueryTree) :
    QueryTree :=
  if mentioned then runPass rule (walk t) t else t

variable (mentioned : Bool) (t : QueryTree)

def rewriteSafeHelpers : QueryTree :=
  rewriteMentioned walk safeRule mentioned t

def rewriteSha512 : QueryTree :=
  rewriteMentioned walk sha512Rule mentioned t

def rewriteStructHelpers : QueryTree :=
  rewriteMentioned walk structRule mentioned t

def rewriteAggregateVariants : QueryTree :=
  rewriteMentioned walk stringAggLimitRule mentioned
    (rewriteMentioned walk arrayAggLimitRule mentioned
      (rewriteMentioned walk ignoreNullsRule mentioned t))

end Passes

/-! ## One rule -/

/-- What a match keeps of its arguments. -/
def keptParts : QueryTree → List QueryTree
  | .node .struct args => structFields args
  | .node .sha2 ((_, operand) :: _) => [operand]
  | .node _ args => args.map Prod.snd
  | .leaf _ => []

variable (t : QueryTree)

section Parts

variable {rule : QueryTree → Option QueryTree}

theorem topDownArgs_eq_map : ∀ args : List (ArgName × QueryTree),
    topDownArgs rule args = args.map fun a => (a.1, topDown rule a.2)
  | [] => rfl
  | (k, t) :: rest => congrArg (cons (k, topDown rule t)) (topDownArgs_eq_map rest)

theorem freeArgs_iff : ∀ args : List (ArgName × QueryTree),
    FreeArgs rule args ↔ ∀ a ∈ args, Free rule a.2
  | [] => by simp [FreeArgs]
  | (_, t) :: rest => by simp [FreeArgs, freeArgs_iff rest]

theorem free_anonymous_iff {name : String} {ts : List QueryTree}
    (h : rule (anonymous name ts) = none) :
    Free rule (anonymous name ts) ↔ ∀ t ∈ ts, Free rule t := by
  rw [anonymous] at h ⊢
  rw [Free, and_iff_right h, freeArgs_iff, forall_mem_map]

/-- What a pass makes of a leaf, of a node it leaves, and of a match. -/
theorem topDown_cases : (∃ l, t = .leaf l ∧ topDown rule t = .leaf l) ∨
    (∃ n args, t = .node n args ∧ rule t = none ∧
      topDown rule t = .node n (args.map fun a => (a.1, topDown rule a.2))) ∨
    ∃ replacement, rule t = some replacement ∧ topDown rule t = replacement := by
  cases t with
  | leaf l => exact .inl ⟨l, rfl, rfl⟩
  | node n args =>
    rw [topDown]
    cases hr : rule (.node n args) with
    | none => exact .inr (.inl ⟨n, args, rfl, rfl, by rw [topDownArgs_eq_map]⟩)
    | some replacement => exact .inr (.inr ⟨replacement, rfl, rfl⟩)

end Parts

variable {n : Construct} {args : List (ArgName × QueryTree)}

/-- Where the rule for `SAFE` does not match. -/
theorem safeRule_eq_none_iff :
    safeRule (.node n args) = none ↔ ¬ (n = .safeFunc ∧ args.map Prod.fst = [.this]) := by
  unfold safeRule
  split
  · rename_i heq
    cases heq
    simp
  rename_i hn
  refine iff_of_true rfl ?_
  rintro ⟨rfl, hk⟩
  obtain ⟨⟨k, t⟩, rfl, rfl⟩ := map_eq_singleton_iff.1 hk
  exact hn t rfl

theorem sha512Rule_eq_none_iff :
    sha512Rule (.node n args) = none ↔ ¬ (n = .sha2 ∧ ∃ operand length,
      args = [(.this, operand), (.length, length)] ∧ isOtherLength length = false) := by
  unfold sha512Rule
  split
  · rename_i operand length heq
    cases heq
    cases h : isOtherLength length <;> simp [h]
  · rename_i hn
    refine iff_of_true rfl ?_
    rintro ⟨rfl, operand, length, rfl, -⟩
    exact hn operand length rfl

/-- Where the rule for structs does not match. -/
theorem structRule_eq_none_iff :
    structRule (.node n args) = none ↔ ¬ (n = .struct ∧ structFields args ≠ [] ∧
      ∀ field ∈ structFields args, isPropertyEq field = false) := by
  unfold structRule
  split
  · rename_i heq
    cases heq
    simp
  · rename_i hn
    refine iff_of_true rfl ?_
    rintro ⟨rfl, -⟩
    exact hn args rfl

theorem isOtherLength_topDown (t : QueryTree) :
    isOtherLength (topDown sha512Rule t) = isOtherLength t := by
  rcases topDown_cases t with ⟨l, rfl, h⟩ | ⟨n, a, rfl, -, h⟩ | ⟨r, hr, h⟩
  · rw [h]
  · rw [h]
    rfl
  unfold sha512Rule at hr
  split at hr
  · split at hr
    · cases hr
    · cases hr
      rw [h]
      rfl
  · cases hr

theorem isPropertyEq_topDown (t : QueryTree) :
    isPropertyEq (topDown structRule t) = isPropertyEq t := by
  rcases topDown_cases t with ⟨l, rfl, h⟩ | ⟨n, a, rfl, -, h⟩ | ⟨r, hr, h⟩
  · rw [h]
  · rw [h]
    cases n <;> rfl
  unfold structRule at hr
  split at hr
  · split at hr
    · cases hr
    · cases hr
      rw [h]
      rfl
  · cases hr

theorem structFields_topDownArgs (a : List (ArgName × QueryTree)) :
    structFields (topDownArgs structRule a) = (structFields a).map (topDown structRule) := by
  rw [topDownArgs_eq_map, structFields, structFields, filter_map, map_map, map_map]
  rfl

/-- The pass leaves no `SAFE` iff none is kept by another. -/
theorem free_safeRule_iff : Free safeRule (topDown safeRule t) ↔ Flat safeRule keptParts t := by
  apply free_topDown_iff
  · intro n a h
    rw [safeRule_eq_none_iff] at h ⊢
    rwa [topDownArgs_eq_map, map_map]
  intro t r h
  unfold safeRule at h
  split at h
  · cases h
    rw [free_anonymous_iff rfl]
    simp [keptParts]
  · cases h

/-- The pass leaves no `SHA512` iff none is kept by another. -/
theorem free_sha512Rule_iff :
    Free sha512Rule (topDown sha512Rule t) ↔ Flat sha512Rule keptParts t := by
  apply free_topDown_iff
  · intro n a h
    rw [sha512Rule_eq_none_iff] at h ⊢
    rintro ⟨rfl, o, length, ha, hl⟩
    match a, ha with
    | [(k, t), (k', t')], ha =>
      cases ha
      exact h ⟨rfl, t, t', rfl, (isOtherLength_topDown t').symm.trans hl⟩
  · intro t r h
    unfold sha512Rule at h
    split at h
    · split at h
      · cases h
      · cases h
        rw [free_anonymous_iff rfl]
        simp [keptParts]
    · cases h

/-- The pass leaves no struct iff none is kept by another. -/
theorem free_structRule_iff :
    Free structRule (topDown structRule t) ↔ Flat structRule keptParts t := by
  apply free_topDown_iff
  · intro n a h
    rw [structRule_eq_none_iff] at h ⊢
    rintro ⟨rfl, hne, hf⟩
    rw [structFields_topDownArgs] at hne hf
    refine h ⟨rfl, fun hn => hne (by rw [hn, map_nil]), fun field hm => ?_⟩
    rw [← isPropertyEq_topDown]
    exact hf _ (mem_map_of_mem hm)
  · intro t r h
    unfold structRule at h
    split at h
    · split at h
      · cases h
      · cases h
        exact free_anonymous_iff rfl
    · cases h

end Bqemulator
