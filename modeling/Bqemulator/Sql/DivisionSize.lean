import Bqemulator.Lib.SyntaxTree

/-!
# The size of guarded divisions

A division is guarded by `CASE WHEN divisor = 0 THEN error(…) ELSE … END`, where the divisor stands
twice, with the divisions inside it already guarded.
-/

namespace Bqemulator

open SyntaxTree List

inductive DivKind where
  | div | paren | neg
  | other (name : String)

inductive DivLeaf where
  | number (isZero : Bool)
  | other

abbrev DivTree := SyntaxTree DivKind String DivLeaf

def isNonzeroNumber : DivTree → Bool :=
  fold (fun
    | .paren, [(_, b)] | .neg, [(_, b)] => b
    | _, _ => false) fun
    | .number isZero => !isZero
    | .other => false

variable (numerator divisor : DivTree)

def buildDivisionCase : DivTree :=
  let condition := .node (.other "EQ") [("this", divisor), ("expression", .leaf (.number true))]
  let errorCall := .node (.other "Anonymous") [("expressions", .leaf .other)]
  .node (.other "Case") [("ifs", .node (.other "If") [("this", condition), ("true", errorCall)]),
    ("default", .node .div [("this", numerator), ("expression", divisor)])]

/-- One node, with its arguments already rewritten. -/
def rewriteDivNode : DivKind → List (String × DivTree) → DivTree
  | .div, [(this, numerator), (expression, divisor)] =>
    if isNonzeroNumber divisor then .node .div [(this, numerator), (expression, divisor)]
    else buildDivisionCase numerator divisor
  | kind, args => .node kind args

/-- The rewriter. -/
def rewriteDivNodes : DivTree → DivTree := fold rewriteDivNode .leaf

def nodes : DivTree → Nat := fold (fun _ args => 1 + (args.map Prod.snd).sum) fun _ => 1

def copiesNode : DivKind → List (String × Nat) → Nat
  | .div, [(_, numerator), (_, divisor)] => 1 + numerator + 2 * divisor
  | _, args => 1 + (args.map Prod.snd).sum

/-- The nodes of a tree, twice as many for each divisor around them. -/
def copies : DivTree → Nat := fold copiesNode fun _ => 1

/-! ## The bound -/

variable {kind : DivKind} {args : List (String × DivTree)}

theorem nodes_node : nodes (.node kind args) = 1 + (args.map fun a => nodes a.2).sum := by
  rw [nodes, fold_node, map_map]
  rfl

theorem nodes_buildDivisionCase :
    nodes (buildDivisionCase numerator divisor) = nodes numerator + 2 * nodes divisor + 7 := by
  simp only [buildDivisionCase, nodes_node, map_cons, map_nil, sum_cons, sum_nil]
  rw [show nodes (.leaf (.number true)) = 1 from rfl, show nodes (.leaf .other) = 1 from rfl]
  omega

/-- What the rewriter makes of a node: the same node, or a guarded division. -/
theorem rewriteDivNode_cases (kind : DivKind) (a : List (String × DivTree)) :
    rewriteDivNode kind a = .node kind a ∨
      ∃ this expression numerator divisor, kind = .div ∧
        a = [(this, numerator), (expression, divisor)] ∧
        rewriteDivNode kind a = buildDivisionCase numerator divisor := by
  unfold rewriteDivNode
  split
  · split
    · exact .inl rfl
    · exact .inr ⟨_, _, _, _, rfl, rfl, rfl⟩
  · exact .inl rfl

theorem le_copiesNode (kind : DivKind) (a : List (String × Nat)) :
    1 + (a.map Prod.snd).sum ≤ copiesNode kind a := by
  unfold copiesNode
  split
  · simp only [map_cons, map_nil, sum_cons, sum_nil]
    omega
  · exact le_rfl

/-- The size of what is built. -/
theorem nodes_rewriteDivNodes_le (t : DivTree) : nodes (rewriteDivNodes t) ≤ 7 * copies t := by
  induction t using inductionOn with
  | leaf l => exact Nat.le_of_ble_eq_true rfl
  | node kind args ih =>
    have hr : rewriteDivNodes (.node kind args) =
        rewriteDivNode kind (args.map fun a => (a.1, rewriteDivNodes a.2)) := fold_node ..
    have hc : copies (.node kind args) =
        copiesNode kind (args.map fun a => (a.1, copies a.2)) := fold_node ..
    rw [hr, hc]
    rcases rewriteDivNode_cases kind (args.map fun a => (a.1, rewriteDivNodes a.2)) with
      heq | ⟨this, expression, numerator, divisor, rfl, har, heq⟩
    · -- no argument is copied
      refine le_trans ?_ (Nat.mul_le_mul_left 7 (le_copiesNode kind _))
      have hs : (args.map fun a => nodes (rewriteDivNodes a.2)).sum ≤
          (args.map fun a => 7 * copies a.2).sum := sum_le_sum ih
      rw [sum_map_mul_left] at hs
      rw [heq, nodes_node, map_map, map_map]
      simp only [Function.comp_def]
      omega
    · obtain ⟨a, _, rfl, ha, har⟩ := map_eq_cons_iff.1 har
      obtain ⟨b, _, rfl, hb, har⟩ := map_eq_cons_iff.1 har
      obtain rfl := map_eq_nil_iff.1 har
      cases ha
      cases hb
      have hn := ih a (by simp)
      have hd := ih b (by simp)
      rw [heq, nodes_buildDivisionCase]
      simp only [map_cons, map_nil, copiesNode]
      omega

/-! ## Divisors in divisors -/

/-- `x / (x / (… / (x)))`, with the parentheses that the parser keeps. -/
def nestedDivisors : Nat → DivTree
  | 0 => .leaf .other
  | k + 1 => .node .div [("this", .leaf .other),
      ("expression", .node .paren [("this", nestedDivisors k)])]

theorem nodes_nestedDivisors (k : Nat) : nodes (nestedDivisors k) = 3 * k + 1 := by
  induction k with
  | zero => rfl
  | succ k ih =>
    rw [nestedDivisors, nodes_node]
    simp only [map_cons, map_nil, sum_cons, sum_nil, nodes_node, ih]
    rw [show nodes (.leaf .other) = 1 from rfl]
    omega

/-- Each level doubles what is built for the one below it. -/
theorem rewriteDivNodes_nestedDivisors (k : Nat) :
    isNonzeroNumber (rewriteDivNodes (nestedDivisors k)) = false ∧
      2 ^ k ≤ nodes (rewriteDivNodes (nestedDivisors k)) := by
  induction k with
  | zero => exact ⟨rfl, le_rfl⟩
  | succ k ih =>
    have hparen : isNonzeroNumber (.node .paren [("this", rewriteDivNodes (nestedDivisors k))]) =
        false := by
      rw [isNonzeroNumber, fold_node]
      exact ih.1
    have heq : rewriteDivNodes (nestedDivisors (k + 1)) = buildDivisionCase (.leaf .other)
        (.node .paren [("this", rewriteDivNodes (nestedDivisors k))]) := by
      rw [nestedDivisors, rewriteDivNodes, fold_node, map_cons, map_cons, map_nil, fold_node]
      exact if_neg (Bool.eq_false_iff.1 hparen)
    rw [heq, nodes_buildDivisionCase, nodes_node, pow_succ]
    simp only [map_cons, map_nil, sum_cons, sum_nil]
    exact ⟨fold_node .., by omega⟩

theorem no_quadratic_bound :
    ¬ ∃ c, ∀ t : DivTree, nodes (rewriteDivNodes t) ≤ c * nodes t * nodes t := by
  rintro ⟨c, h⟩
  -- at `3 * j` levels the tree has more than `j ^ 3` nodes, and `j` passes `100 * c`
  obtain ⟨j, hj⟩ : ∃ j, j = 100 * c + 1 := ⟨_, rfl⟩
  have hs := (rewriteDivNodes_nestedDivisors (3 * j)).2.trans (h (nestedDivisors (3 * j)))
  rw [nodes_nestedDivisors, pow_mul'] at hs
  have hc : j ^ 3 < (2 ^ j) ^ 3 := Nat.pow_lt_pow_left Nat.lt_two_pow_self (by decide)
  have hl : 3 * (3 * j) + 1 ≤ 10 * j := by omega
  have hsq : c * (3 * (3 * j) + 1) * (3 * (3 * j) + 1) ≤ j ^ 3 :=
    calc _ ≤ c * (10 * j) * (10 * j) := Nat.mul_le_mul (Nat.mul_le_mul_left c hl) hl
      _ = 100 * c * (j * j) := by ring
      _ ≤ j * (j * j) := Nat.mul_le_mul_right _ (by omega)
      _ = j ^ 3 := by ring
  omega

end Bqemulator
