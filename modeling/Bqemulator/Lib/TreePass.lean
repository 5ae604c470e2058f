import Bqemulator.Lib.SyntaxTree

/-!
# Passes that replace nodes while they walk

A pass over a mutable syntax tree takes a list of its nodes, and then replaces those that a rule
matches by trees made of copies of their arguments. A node below a replaced one is no longer in the
tree, and its copy is not in the list: if parents come first, only the topmost matches are
rewritten.
-/

namespace SyntaxTree

open List

variable {N K L M : Type}

/-! ## Places -/

abbrev Position : Type := List Nat

mutual

/-- The places of the nodes of a tree at a place, from the top and from left to right. -/
def positionsAt : Position → SyntaxTree N K L → List Position
  | _, .leaf _ => []
  | p, .node _ args => p :: positionsFrom p 0 args

def positionsFrom : Position → Nat → List (K × SyntaxTree N K L) → List Position
  | _, _, [] => []
  | p, i, (_, t) :: rest => positionsAt (i :: p) t ++ positionsFrom p (i + 1) rest

end

/-- Every place comes after the one above it, which may be among those seen before. -/
def ParentsFirst : (seen order : List Position) → Prop
  | _, [] => True
  | seen, p :: rest => (p = [] ∨ p.tail ∈ seen) ∧ ParentsFirst (p :: seen) rest

/-- **A walk through a tree** lists each node once, parents before children. -/
structure IsWalk (t : SyntaxTree N K L) (order : List Position) : Prop where
  nodup : order.Nodup
  complete : ∀ p ∈ positionsAt [] t, p ∈ order
  parentsFirst : ParentsFirst [] order

/-! ## Tagged trees -/

abbrev Tagged (N K L : Type) : Type := SyntaxTree (Option Position × N) K L

mutual

def relabel (f : N → M) : SyntaxTree N K L → SyntaxTree M K L
  | .leaf l => .leaf l
  | .node n args => .node (f n) (relabelArgs f args)

def relabelArgs (f : N → M) : List (K × SyntaxTree N K L) → List (K × SyntaxTree M K L)
  | [] => []
  | (k, t) :: rest => (k, relabel f t) :: relabelArgs f rest

end

def untag (t : Tagged N K L) : SyntaxTree N K L := relabel Prod.snd t

def fresh (t : SyntaxTree N K L) : Tagged N K L := relabel (Prod.mk none) t

mutual

def tagAt : Position → SyntaxTree N K L → Tagged N K L
  | _, .leaf l => .leaf l
  | p, .node n args => .node (some p, n) (tagFrom p 0 args)

def tagFrom : Position → Nat → List (K × SyntaxTree N K L) → List (K × Tagged N K L)
  | _, _, [] => []
  | p, i, (k, t) :: rest => (k, tagAt (i :: p) t) :: tagFrom p (i + 1) rest

end

/-! ## The pass -/

section Pass

variable (rule : SyntaxTree N K L → Option (SyntaxTree N K L))

mutual

/-- Visit a node: if it is still in the tree and the rule matches it, replace it by a new tree. -/
def visit (p : Position) : Tagged N K L → Tagged N K L
  | .leaf l => .leaf l
  | .node n args =>
    if n.1 = some p then
      match rule (untag (.node n args)) with
      | some replacement => fresh replacement
      | none => .node n args
    else .node n (visitArgs p args)

def visitArgs (p : Position) : List (K × Tagged N K L) → List (K × Tagged N K L)
  | [] => []
  | (k, t) :: rest => (k, visit p t) :: visitArgs p rest

end

/-- The pass, on nodes that are known by their places. -/
def runPass (order : List Position) (t : SyntaxTree N K L) : SyntaxTree N K L :=
  untag (order.foldl (fun t p => visit rule p t) (tagAt [] t))

mutual

/-- The topmost matches, replaced. -/
def topDown : SyntaxTree N K L → SyntaxTree N K L
  | .leaf l => .leaf l
  | .node n args =>
    match rule (.node n args) with
    | some replacement => replacement
    | none => .node n (topDownArgs args)

def topDownArgs : List (K × SyntaxTree N K L) → List (K × SyntaxTree N K L)
  | [] => []
  | (k, t) :: rest => (k, topDown t) :: topDownArgs rest

end

mutual

/-- No match is in `t`. -/
def Free : SyntaxTree N K L → Prop
  | .leaf _ => True
  | .node n args => rule (.node n args) = none ∧ FreeArgs args

def FreeArgs : List (K × SyntaxTree N K L) → Prop
  | [] => True
  | (_, t) :: rest => Free t ∧ FreeArgs rest

end

mutual

/-- **No match is inside of another**, in the parts of a topmost match that are kept. -/
def Flat (kept : SyntaxTree N K L → List (SyntaxTree N K L)) : SyntaxTree N K L → Prop
  | .leaf _ => True
  | .node n args =>
    match rule (.node n args) with
    | some _ => ∀ t ∈ kept (.node n args), Free rule t
    | none => FlatArgs kept args

def FlatArgs (kept : SyntaxTree N K L → List (SyntaxTree N K L)) :
    List (K × SyntaxTree N K L) → Prop
  | [] => True
  | (_, t) :: rest => Flat kept t ∧ FlatArgs kept rest

end

mutual

def progress (done : List Position) : Position → SyntaxTree N K L → Tagged N K L
  | _, .leaf l => .leaf l
  | p, .node n args =>
    if p ∈ done then
      match rule (.node n args) with
      | some replacement => fresh replacement
      | none => .node (some p, n) (progressFrom done p 0 args)
    else tagAt p (.node n args)

def progressFrom (done : List Position) :
    Position → Nat → List (K × SyntaxTree N K L) → List (K × Tagged N K L)
  | _, _, [] => []
  | p, i, (k, t) :: rest => (k, progress done (i :: p) t) :: progressFrom done p (i + 1) rest

end

end Pass

/-! ## A pass replaces the topmost matches -/

section TopDown

variable {rule : SyntaxTree N K L → Option (SyntaxTree N K L)}

mutual

theorem untag_fresh : ∀ t : SyntaxTree N K L, untag (fresh t) = t
  | .leaf _ => rfl
  | .node n a => congrArg (node n) (untag_freshArgs a)

theorem untag_freshArgs : ∀ args : List (K × SyntaxTree N K L),
    relabelArgs Prod.snd (relabelArgs (Prod.mk (none : Option Position)) args) = args
  | [] => rfl
  | (k, t) :: rest =>
    congrArg₂ cons (congrArg (Prod.mk k) (untag_fresh t)) (untag_freshArgs rest)

end

mutual

theorem untag_tagAt : ∀ (p : Position) (t : SyntaxTree N K L), untag (tagAt p t) = t
  | _, .leaf _ => rfl
  | p, .node n args => congrArg (node n) (untag_tagFrom p 0 args)

theorem untag_tagFrom : ∀ (p : Position) (i : Nat) (args : List (K × SyntaxTree N K L)),
    relabelArgs Prod.snd (tagFrom p i args) = args
  | _, _, [] => rfl
  | p, i, (k, t) :: rest => congrArg₂ cons (congrArg (Prod.mk k) (untag_tagAt (i :: p) t))
      (untag_tagFrom p (i + 1) rest)

end

mutual

theorem visit_fresh (p : Position) : ∀ t : SyntaxTree N K L, visit rule p (fresh t) = fresh t
  | .leaf _ => rfl
  | .node n a => by
    rw [fresh, relabel, visit, if_neg nofun]
    exact congrArg (node _) (visit_freshArgs p a)

theorem visit_freshArgs (p : Position) : ∀ args : List (K × SyntaxTree N K L),
    visitArgs rule p (relabelArgs (Prod.mk none) args) = relabelArgs (Prod.mk none) args
  | [] => rfl
  | (k, t) :: rest =>
    congrArg₂ cons (congrArg (Prod.mk k) (visit_fresh p t)) (visit_freshArgs p rest)

end

mutual

theorem visit_tagAt {p : Position} : ∀ (q : Position) (t : SyntaxTree N K L), ¬ q <:+ p →
    visit rule p (tagAt q t) = tagAt q t
  | _, .leaf _, _ => rfl
  | q, .node n args, h => by
    have hn : some q ≠ some p := fun heq => h (Option.some.inj heq ▸ suffix_rfl)
    rw [tagAt, visit, if_neg hn, visit_tagFrom q 0 args h]

theorem visit_tagFrom {p : Position} : ∀ (q : Position) (i : Nat)
    (args : List (K × SyntaxTree N K L)), ¬ q <:+ p →
    visitArgs rule p (tagFrom q i args) = tagFrom q i args
  | _, _, [], _ => rfl
  | q, i, (k, t) :: rest, h => by
    have hb : ¬ (i :: q) <:+ p := fun hs => h ((suffix_cons i q).trans hs)
    rw [tagFrom, visitArgs, visit_tagAt (i :: q) t hb, visit_tagFrom q (i + 1) rest h]

end

variable {done : List Position} {p : Position}

theorem progress_of_notMem (h : p ∉ done) (t : SyntaxTree N K L) :
    progress rule done p t = tagAt p t := by
  cases t with
  | leaf l => rfl
  | node => rw [progress, if_neg h]

theorem progressFrom_of_notMem (h : ∀ i, i :: p ∉ done) (args : List (K × SyntaxTree N K L))
    (i : Nat) : progressFrom rule done p i args = tagFrom p i args := by
  induction args generalizing i with
  | nil => rfl
  | cons a r ih => rw [progressFrom, tagFrom, progress_of_notMem (h i), ih]

/-- A set of places with every place above one of them. -/
def ClosedUp (done : List Position) : Prop := ∀ i p, i :: p ∈ done → p ∈ done

theorem ClosedUp.mem_of_suffix (h : ClosedUp done) {q : Position} :
    ∀ {p : Position}, p ∈ done → q <:+ p → q ∈ done
  | [], hp, hs => suffix_nil.1 hs ▸ hp
  | i :: p, hp, hs => by
    rcases suffix_cons_iff.1 hs with rfl | hs
    · exact hp
    · exact h.mem_of_suffix (h i p hp) hs

section Step

set_option linter.unusedSectionVars false

variable (hclosed : ClosedUp done) (hp : p ∉ done) (hparent : p = [] ∨ p.tail ∈ done)

include hclosed hp hparent

mutual

theorem visit_progress : ∀ (q : Position) (t : SyntaxTree N K L),
    visit rule p (progress rule done q t) = progress rule (p :: done) q t
  | _, .leaf _ => rfl
  | q, .node n args => by
    by_cases hq : q ∈ done
    · -- above or beside the visited node, or below a replaced one
      have hn : some q ≠ some p := fun heq => hp (Option.some.inj heq ▸ hq)
      rw [progress, if_pos hq, progress, if_pos (mem_cons_of_mem p hq)]
      cases rule (.node n args) with
      | some r => exact visit_fresh p r
      | none => exact (if_neg hn).trans (congrArg _ (visit_progressFrom q 0 args))
    · rw [progress_of_notMem hq]
      by_cases heq : q = p
      · -- the visited node
        have hb : ∀ i, i :: p ∉ p :: done := by
          intro i hm
          rcases mem_cons.1 hm with hse | hm
          · exact absurd (congrArg length hse) (Nat.succ_ne_self _)
          · exact hp (hclosed i p hm)
        rw [heq, progress, if_pos mem_cons_self, tagAt, visit, if_pos rfl, ← tagAt, untag_tagAt,
          progressFrom_of_notMem hb]
        rfl
      · -- a node that has not been visited is not above the visited one
        have hsi : ¬ q <:+ p := by
          intro hs
          rcases hparent with rfl | hparent
          · exact heq (suffix_nil.1 hs)
          cases p with
          | nil => exact heq (suffix_nil.1 hs)
          | cons i p =>
            rcases suffix_cons_iff.1 hs with rfl | hs
            · exact heq rfl
            · exact hq (hclosed.mem_of_suffix hparent hs)
        rw [visit_tagAt q _ hsi, progress_of_notMem]
        exact fun hm => (mem_cons.1 hm).elim heq hq

theorem visit_progressFrom : ∀ (q : Position) (i : Nat) (args : List (K × SyntaxTree N K L)),
    visitArgs rule p (progressFrom rule done q i args) = progressFrom rule (p :: done) q i args
  | _, _, [] => rfl
  | q, i, (k, t) :: rest => congrArg₂ cons (congrArg (Prod.mk k) (visit_progress (i :: q) t))
      (visit_progressFrom q (i + 1) rest)

end

end Step

theorem ClosedUp.cons (h : ClosedUp done) (hparent : p = [] ∨ p.tail ∈ done) :
    ClosedUp (p :: done) := by
  intro i q hm
  rcases mem_cons.1 hm with rfl | hm
  · exact mem_cons_of_mem _ (hparent.resolve_left nofun)
  · exact mem_cons_of_mem _ (h i q hm)

theorem foldl_visit (t : SyntaxTree N K L) : ∀ (order done : List Position), ClosedUp done →
    ParentsFirst done order → order.Nodup → (∀ p ∈ order, p ∉ done) →
    order.foldl (fun t p => visit rule p t) (progress rule done [] t) =
      progress rule (order.reverse ++ done) [] t
  | [], _, _, _, _, _ => rfl
  | p :: r, done, hclosed, hf, hnd, hn => by
    obtain ⟨hp, hnd⟩ := nodup_cons.1 hnd
    have hn' : ∀ q ∈ r, q ∉ p :: done := by
      intro q hq hm
      rcases mem_cons.1 hm with rfl | hm
      · exact hp hq
      · exact hn q (mem_cons_of_mem p hq) hm
    rw [foldl_cons, visit_progress hclosed (hn p mem_cons_self) hf.1,
      foldl_visit t r (p :: done) (hclosed.cons hf.1) hf.2 hnd hn',
      reverse_cons, append_assoc, singleton_append]

mutual

theorem untag_progress {d : List Position} : ∀ (p : Position) (t : SyntaxTree N K L),
    (∀ q ∈ positionsAt p t, q ∈ d) → untag (progress rule d p t) = topDown rule t
  | _, .leaf _, _ => rfl
  | p, .node n args, h => by
    rw [progress, if_pos (h p mem_cons_self), topDown]
    cases rule (.node n args) with
    | some r => exact untag_fresh r
    | none =>
      exact congrArg (node n)
        (untag_progressFrom p 0 args fun q hq => h q (mem_cons_of_mem p hq))

theorem untag_progressFrom {d : List Position} : ∀ (p : Position) (i : Nat)
    (args : List (K × SyntaxTree N K L)), (∀ q ∈ positionsFrom p i args, q ∈ d) →
    relabelArgs Prod.snd (progressFrom rule d p i args) = topDownArgs rule args
  | _, _, [], _ => rfl
  | p, i, (k, t) :: rest, h => congrArg₂ cons
      (congrArg (Prod.mk k) (untag_progress (i :: p) t fun q hq => h q (mem_append_left _ hq)))
      (untag_progressFrom p (i + 1) rest fun q hq => h q (mem_append_right _ hq))

end

/-- A pass along a walk replaces the topmost matches. -/
theorem runPass_eq_topDown {t : SyntaxTree N K L} {o : List Position} (h : IsWalk t o) :
    runPass rule o t = topDown rule t := by
  have hf : o.foldl (fun t p => visit rule p t) (progress rule [] [] t) = _ :=
    foldl_visit t o [] (fun _ _ hm => by cases hm) h.parentsFirst h.nodup
      fun _ _ hm => by cases hm
  rw [progress_of_notMem not_mem_nil, append_nil] at hf
  rw [runPass, hf]
  exact untag_progress [] t fun q hq => mem_reverse.2 (h.complete q hq)

/-! ## What a pass leaves -/

section Left

set_option linter.unusedSectionVars false

variable {kept : SyntaxTree N K L → List (SyntaxTree N K L)}
  (hstable : ∀ n args, rule (.node n args) = none → rule (.node n (topDownArgs rule args)) = none)
  (hkept : ∀ t replacement, rule t = some replacement →
    (Free rule replacement ↔ ∀ t' ∈ kept t, Free rule t'))

include hstable hkept

mutual

/-- No match is left iff none is inside of another, provided that a replacement leaves matches only
in the parts it keeps and makes none above. -/
theorem free_topDown_iff : ∀ t : SyntaxTree N K L, Free rule (topDown rule t) ↔ Flat rule kept t
  | .leaf _ => Iff.rfl
  | .node n a => by
    rw [topDown, Flat]
    cases hr : rule (.node n a) with
    | some => exact hkept _ _ hr
    | none => exact (and_iff_right (hstable n a hr)).trans (free_topDownArgs_iff a)

theorem free_topDownArgs_iff : ∀ args : List (K × SyntaxTree N K L),
    FreeArgs rule (topDownArgs rule args) ↔ FlatArgs rule kept args
  | [] => Iff.rfl
  | (_, t) :: rest => and_congr (free_topDown_iff t) (free_topDownArgs_iff rest)

end

end Left

end TopDown

/-! ## A walk -/

mutual

theorem suffix_of_mem_positionsAt : ∀ (p : Position) (t : SyntaxTree N K L) {q : Position},
    q ∈ positionsAt p t → p <:+ q
  | _, .leaf _, _, h => by cases h
  | p, .node _ args, q, h => by
    rcases mem_cons.1 h with rfl | h
    · exact suffix_rfl
    · obtain ⟨j, -, hj⟩ := suffix_of_mem_positionsFrom p 0 args h
      exact (suffix_cons j p).trans hj

theorem suffix_of_mem_positionsFrom : ∀ (p : Position) (i : Nat)
    (args : List (K × SyntaxTree N K L)) {q : Position}, q ∈ positionsFrom p i args →
    ∃ j, i ≤ j ∧ (j :: p) <:+ q
  | _, _, [], _, h => by cases h
  | p, i, (_, t) :: rest, q, h => by
    rcases mem_append.1 h with h | h
    · exact ⟨i, Nat.le_refl i, suffix_of_mem_positionsAt (i :: p) t h⟩
    · obtain ⟨j, hi, hj⟩ := suffix_of_mem_positionsFrom p (i + 1) rest h
      exact ⟨j, Nat.le_of_succ_le hi, hj⟩

end

mutual

theorem nodup_positionsAt : ∀ (p : Position) (t : SyntaxTree N K L), (positionsAt p t).Nodup
  | _, .leaf _ => nodup_nil
  | p, .node _ args => by
    refine nodup_cons.2 ⟨fun hm => ?_, nodup_positionsFrom p 0 args⟩
    obtain ⟨j, -, hj⟩ := suffix_of_mem_positionsFrom p 0 args hm
    exact absurd hj.length_le (Nat.not_succ_le_self _)

theorem nodup_positionsFrom : ∀ (p : Position) (i : Nat) (args : List (K × SyntaxTree N K L)),
    (positionsFrom p i args).Nodup
  | _, _, [] => nodup_nil
  | p, i, (_, t) :: rest => by
    refine nodup_append.2 ⟨nodup_positionsAt (i :: p) t, nodup_positionsFrom p (i + 1) rest, ?_⟩
    rintro q hq _ hq' rfl
    -- a place is below one argument only
    obtain ⟨j, hij, hj⟩ := suffix_of_mem_positionsFrom p (i + 1) rest hq'
    have hi := suffix_of_mem_positionsAt (i :: p) t hq
    have heq := (suffix_of_suffix_length_le hi hj (Nat.le_refl _)).eq_of_length rfl
    cases heq
    exact absurd hij (Nat.not_succ_le_self _)

end

mutual

theorem parentsFirst_positionsAt {r : List Position} : ∀ (p : Position) (t : SyntaxTree N K L)
    (seen : List Position), (p = [] ∨ p.tail ∈ seen) →
    (∀ seen', (∀ q ∈ seen, q ∈ seen') → ParentsFirst seen' r) →
    ParentsFirst seen (positionsAt p t ++ r)
  | _, .leaf _, seen, _, hr => hr seen fun _ hq => hq
  | p, .node _ args, seen, hp, hr => ⟨hp, parentsFirst_positionsFrom p 0 args (p :: seen)
      mem_cons_self fun seen' hs => hr seen' fun q hq =>
        hs q (mem_cons_of_mem p hq)⟩

theorem parentsFirst_positionsFrom {r : List Position} : ∀ (p : Position) (i : Nat)
    (args : List (K × SyntaxTree N K L)) (seen : List Position), p ∈ seen →
    (∀ seen', (∀ q ∈ seen, q ∈ seen') → ParentsFirst seen' r) →
    ParentsFirst seen (positionsFrom p i args ++ r)
  | _, _, [], seen, _, hr => hr seen fun _ hq => hq
  | p, i, (_, t) :: args, seen, hp, hr => by
    rw [positionsFrom, append_assoc]
    exact parentsFirst_positionsAt (i :: p) t seen (.inr hp) fun seen' hs =>
      parentsFirst_positionsFrom p (i + 1) args seen' (hs p hp) fun s'' hs' =>
        hr s'' fun q hq => hs' q (hs q hq)

end

/-- The order from the top and from left to right is a walk. -/
theorem isWalk_positionsAt (t : SyntaxTree N K L) : IsWalk t (positionsAt [] t) where
  nodup := nodup_positionsAt [] t
  complete _ hp := hp
  parentsFirst := by
    rw [← append_nil (positionsAt [] t)]
    exact parentsFirst_positionsAt [] t [] (.inl rfl) fun _ _ => trivial

end SyntaxTree
