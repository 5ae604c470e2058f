import Mathlib

/-!
# Syntax trees with substitutable leaves

A syntax tree has labelled nodes, each with a list of keyed arguments, and leaves. A pass replaces
every leaf by a tree, and may look at its *path*: the labels and keys up to the root. A meaning is a
fold.
-/

/-- Trees with node labels `N`, argument keys `K` and leaves `L`. -/
inductive SyntaxTree (N K L : Type) where
  | leaf (l : L)
  | node (n : N) (args : List (K × SyntaxTree N K L))

namespace SyntaxTree

open List

variable {N K L M V ε : Type}

abbrev Path (N K : Type) : Type := List (N × K)

@[elab_as_elim]
theorem inductionOn {motive : SyntaxTree N K L → Prop} (t : SyntaxTree N K L)
    (leaf : ∀ l, motive (.leaf l))
    (node : ∀ n args, (∀ a ∈ args, motive a.2) → motive (.node n args)) : motive t :=
  match t with
  | .leaf l => leaf l
  | .node n args => node n args fun a _ => inductionOn a.2 leaf node
termination_by sizeOf t
decreasing_by
  have := sizeOf_lt_of_mem ‹a ∈ args›
  rcases a with ⟨k, s⟩
  simp only [Prod.mk.sizeOf_spec, SyntaxTree.node.sizeOf_spec] at *
  omega

/-! ## Meaning -/

mutual

/-- The meaning of a tree at a path: `alg` interprets the nodes and `val` the leaves. -/
def foldAt (alg : N → List (K × V) → V) (val : Path N K → L → V) :
    Path N K → SyntaxTree N K L → V
  | p, .leaf l => val p l
  | p, .node n args => alg n (foldArgs alg val p n args)

def foldArgs (alg : N → List (K × V) → V) (val : Path N K → L → V) :
    Path N K → N → List (K × SyntaxTree N K L) → List (K × V)
  | _, _, [] => []
  | p, n, (k, t) :: rest => (k, foldAt alg val ((n, k) :: p) t) :: foldArgs alg val p n rest

end

section Fold

variable (alg : N → List (K × V) → V) (val : Path N K → L → V) (p : Path N K)

@[simp] theorem foldAt_leaf (l : L) : foldAt alg val p (.leaf l : SyntaxTree N K L) = val p l := by
  rw [foldAt]

theorem foldArgs_eq_map (n : N) (args : List (K × SyntaxTree N K L)) :
    foldArgs alg val p n args =
      args.map fun a => (a.1, foldAt alg val ((n, a.1) :: p) a.2) := by
  induction args with
  | nil => rw [foldArgs]; rfl
  | cons a r ih => rw [foldArgs, ih]; rfl

@[simp] theorem foldAt_node (n : N) (args : List (K × SyntaxTree N K L)) :
    foldAt alg val p (.node n args) =
      alg n (args.map fun a => (a.1, foldAt alg val ((n, a.1) :: p) a.2)) := by
  rw [foldAt, foldArgs_eq_map]

end Fold

/-! ## Substitution -/

mutual

/-- `t` with every leaf replaced by a tree. -/
def bindAt (f : Path N K → L → SyntaxTree N K M) :
    Path N K → SyntaxTree N K L → SyntaxTree N K M
  | p, .leaf l => f p l
  | p, .node n args => .node n (bindArgs f p n args)

def bindArgs (f : Path N K → L → SyntaxTree N K M) :
    Path N K → N → List (K × SyntaxTree N K L) → List (K × SyntaxTree N K M)
  | _, _, [] => []
  | p, n, (k, t) :: rest => (k, bindAt f ((n, k) :: p) t) :: bindArgs f p n rest

end

section Bind

variable (f : Path N K → L → SyntaxTree N K M) (p : Path N K)

@[simp] theorem bindAt_leaf (l : L) : bindAt f p (.leaf l) = f p l := by
  rw [bindAt]

theorem bindArgs_eq_map (n : N) (args : List (K × SyntaxTree N K L)) :
    bindArgs f p n args = args.map fun a => (a.1, bindAt f ((n, a.1) :: p) a.2) := by
  induction args with
  | nil => rw [bindArgs]; rfl
  | cons a r ih => rw [bindArgs, ih]; rfl

@[simp] theorem bindAt_node (n : N) (args : List (K × SyntaxTree N K L)) :
    bindAt f p (.node n args) =
      .node n (args.map fun a => (a.1, bindAt f ((n, a.1) :: p) a.2)) := by
  rw [bindAt, bindArgs_eq_map]

end Bind

/-! ## Leaves -/

mutual

/-- The leaves of `t` with their paths. -/
def leavesAt : Path N K → SyntaxTree N K L → List (Path N K × L)
  | p, .leaf l => [(p, l)]
  | p, .node n args => leavesArgs p n args

def leavesArgs : Path N K → N → List (K × SyntaxTree N K L) → List (Path N K × L)
  | _, _, [] => []
  | p, n, (k, t) :: rest => leavesAt ((n, k) :: p) t ++ leavesArgs p n rest

end

variable (p : Path N K)

@[simp] theorem leavesAt_leaf (l : L) : leavesAt p (.leaf l : SyntaxTree N K L) = [(p, l)] := by
  rw [leavesAt]

theorem leavesArgs_eq_flatMap (n : N) (args : List (K × SyntaxTree N K L)) :
    leavesArgs p n args = args.flatMap fun a => leavesAt ((n, a.1) :: p) a.2 := by
  induction args with
  | nil => rw [leavesArgs]; rfl
  | cons a r ih => rw [leavesArgs, ih]; rfl

@[simp] theorem leavesAt_node (n : N) (args : List (K × SyntaxTree N K L)) :
    leavesAt p (.node n args) = args.flatMap fun a => leavesAt ((n, a.1) :: p) a.2 := by
  rw [leavesAt, leavesArgs_eq_flatMap]

theorem leavesAt_singleton {n : N} {k : K} :
    leavesAt p (.node n [(k, t)]) = leavesAt ((n, k) :: p) t := by
  rw [leavesAt_node, flatMap_cons, flatMap_nil, append_nil]

variable {p : Path N K}

theorem mem_leavesAt_arg {n : N} {args : List (K × SyntaxTree N K L)} {a : K × SyntaxTree N K L}
    (ha : a ∈ args) {x : Path N K × L} (hx : x ∈ leavesAt ((n, a.1) :: p) a.2) :
    x ∈ leavesAt p (.node n args) := by
  rw [leavesAt_node]
  exact mem_flatMap.2 ⟨a, ha, hx⟩

/-! ## The laws of substitution -/

variable {g : Path N K → L → SyntaxTree N K M} {f' : Path N K → L → Except ε (SyntaxTree N K L)}

section Laws

variable {alg : N → List (K × V) → V} {val val' : Path N K → L → V} {t : SyntaxTree N K L}
  {f : Path N K → L → SyntaxTree N K M}

/-- Agreement: valuations that agree on the leaves of a tree give it the same meaning. -/
theorem foldAt_congr (h : ∀ x ∈ leavesAt p t, val x.1 x.2 = val' x.1 x.2) :
    foldAt alg val p t = foldAt alg val' p t := by
  induction t using inductionOn generalizing p with
  | leaf l => simpa using h
  | node n args ih =>
    rw [foldAt_node, foldAt_node]
    congr 1
    refine map_congr_left fun a ha => ?_
    rw [ih a ha fun x hx => h x (mem_leavesAt_arg ha hx)]

/-- The meaning of a substituted tree is that of the tree when each leaf means what was put in its
place. -/
theorem foldAt_bindAt {v : Path N K → M → V} (f : Path N K → L → SyntaxTree N K M)
    (p : Path N K) (t : SyntaxTree N K L) :
    foldAt alg v p (bindAt f p t) =
      foldAt alg (fun q l => foldAt alg v q (f q l)) p t := by
  induction t using inductionOn generalizing p with
  | leaf l => simp
  | node n args ih =>
    rw [bindAt_node, foldAt_node, foldAt_node, map_map]
    congr 1
    refine map_congr_left fun a ha => ?_
    simp [ih a ha]

theorem bindAt_congr (h : ∀ x ∈ leavesAt p t, f x.1 x.2 = g x.1 x.2) :
    bindAt f p t = bindAt g p t := by
  induction t using inductionOn generalizing p with
  | leaf l => simpa using h
  | node n args ih =>
    rw [bindAt_node, bindAt_node]
    congr 1
    refine map_congr_left fun a ha => ?_
    rw [ih a ha fun x hx => h x (mem_leavesAt_arg ha hx)]

/-- The leaves of a substituted tree. -/
theorem leavesAt_bindAt (f : Path N K → L → SyntaxTree N K M) (p : Path N K)
    (t : SyntaxTree N K L) :
    leavesAt p (bindAt f p t) = (leavesAt p t).flatMap fun x => leavesAt x.1 (f x.1 x.2) := by
  induction t using inductionOn generalizing p with
  | leaf l => simp
  | node n args ih =>
    rw [bindAt_node, leavesAt_node, leavesAt_node, flatMap_map, flatMap_assoc]
    simp only [flatMap_def]
    congr 1
    exact map_congr_left fun a ha => ih a ha _

theorem mem_leavesAt_bindAt {y : Path N K × M} :
    y ∈ leavesAt p (bindAt f p t) ↔ ∃ x ∈ leavesAt p t, y ∈ leavesAt x.1 (f x.1 x.2) := by
  rw [leavesAt_bindAt, mem_flatMap]

theorem bindAt_path (f : L → SyntaxTree N K M) (p q : Path N K) (t : SyntaxTree N K L) :
    bindAt (fun _ => f) p t = bindAt (fun _ => f) q t := by
  induction t using inductionOn generalizing p q with
  | leaf l => simp
  | node n args ih =>
    rw [bindAt_node, bindAt_node]
    congr 1
    exact map_congr_left fun a ha => by rw [ih a ha]

theorem foldAt_append (v : Path N K → L → V) (p q : Path N K) (t : SyntaxTree N K L) :
    foldAt alg v (q ++ p) t = foldAt alg (fun r => v (r ++ p)) q t := by
  induction t using inductionOn generalizing q with
  | leaf l => simp
  | node n args ih =>
    rw [foldAt_node, foldAt_node]
    congr 1
    refine map_congr_left fun a ha => ?_
    rw [← cons_append, ih a ha]

/-- The meaning of a tree whose leaves are read without their paths. -/
def fold (alg : N → List (K × V) → V) (val : L → V) (t : SyntaxTree N K L) : V :=
  foldAt alg (fun _ => val) [] t

@[simp] theorem fold_node (v : L → V) (n : N) (args : List (K × SyntaxTree N K L)) :
    fold alg v (.node n args) = alg n (args.map fun a => (a.1, fold alg v a.2)) := by
  rw [fold, foldAt_node]
  congr 2
  funext a
  exact congrArg (Prod.mk a.1) (foldAt_append (fun _ => v) [(n, a.1)] [] a.2)

theorem leavesAt_append (p q : Path N K) (t : SyntaxTree N K L) :
    leavesAt (q ++ p) t = (leavesAt q t).map fun x => (x.1 ++ p, x.2) := by
  induction t using inductionOn generalizing q with
  | leaf l => simp
  | node n args ih =>
    rw [leavesAt_node, leavesAt_node, map_flatMap]
    simp only [flatMap_def]
    congr 1
    refine map_congr_left fun a ha => ?_
    rw [← cons_append, ih a ha]

theorem bindAt_leaf_self (p : Path N K) (t : SyntaxTree N K L) :
    bindAt (fun _ l => .leaf l) p t = t := by
  induction t using inductionOn generalizing p with
  | leaf l => simp
  | node n args ih =>
    rw [bindAt_node]
    congr 1
    exact (map_congr_left fun a ha => by rw [ih a ha]; rfl).trans (map_id _)

theorem bindAt_bindAt {f g : Path N K → L → SyntaxTree N K L} :
    bindAt g p (bindAt f p t) = bindAt (fun q l => bindAt g q (f q l)) p t := by
  induction t using inductionOn generalizing p with
  | leaf l => simp
  | node n args ih =>
    rw [bindAt_node, bindAt_node, bindAt_node, map_map]
    congr 1
    refine map_congr_left fun a ha => ?_
    simp [ih a ha]

theorem bindAt_eq_iff :
    bindAt f p t = bindAt g p t ↔ ∀ x ∈ leavesAt p t, f x.1 x.2 = g x.1 x.2 := by
  refine ⟨?_, bindAt_congr⟩
  induction t using inductionOn generalizing p with
  | leaf l => simp
  | node n args ih =>
    intro h x hx
    rw [bindAt_node, bindAt_node, node.injEq] at h
    rw [leavesAt_node] at hx
    obtain ⟨a, ha, hx⟩ := mem_flatMap.1 hx
    have har := map_inj_left.1 h.2 a ha
    exact ih a ha (Prod.mk.inj har).2 x hx

end Laws

/-! ## Substitution that may fail -/

mutual

/-- `bindAt` with a replacement that may fail: the error of the first leaf that has one. -/
def tryBindAt (f : Path N K → L → Except ε (SyntaxTree N K L)) :
    Path N K → SyntaxTree N K L → Except ε (SyntaxTree N K L)
  | p, .leaf l => f p l
  | p, .node n args => (tryBindArgs f p n args).map (.node n)

def tryBindArgs (f : Path N K → L → Except ε (SyntaxTree N K L)) :
    Path N K → N → List (K × SyntaxTree N K L) → Except ε (List (K × SyntaxTree N K L))
  | _, _, [] => .ok []
  | p, n, (k, t) :: rest =>
    match tryBindAt f ((n, k) :: p) t, tryBindArgs f p n rest with
    | .ok t', .ok rest' => .ok ((k, t') :: rest')
    | .error e, _ => .error e
    | _, .error e => .error e

end

def orLeaf (f : Path N K → L → Except ε (SyntaxTree N K L)) :
    Path N K → L → SyntaxTree N K L := fun q l =>
  match f q l with
  | .ok t => t
  | .error _ => .leaf l

section TryBind

variable {f : Path N K → L → Except ε (SyntaxTree N K L)} {t u : SyntaxTree N K L}

theorem orLeaf_of_ok {l : L} (h : f p l = .ok t) : orLeaf f p l = t := by
  rw [orLeaf, h]

theorem tryBindAt_eq_ok (h : ∀ x ∈ leavesAt p t, ∃ u, f x.1 x.2 = .ok u) :
    tryBindAt f p t = .ok (bindAt (orLeaf f) p t) := by
  induction t using inductionOn generalizing p with
  | leaf l =>
    obtain ⟨u, hu⟩ := h (p, l) (by simp)
    rw [tryBindAt, bindAt_leaf, orLeaf_of_ok hu, hu]
  | node n args ih =>
    have har : tryBindArgs f p n args = .ok (bindArgs (orLeaf f) p n args) := by
      replace ih a ha := ih a ha fun x hx => h x (mem_leavesAt_arg ha hx)
      clear h
      induction args with
      | nil => rw [tryBindArgs, bindArgs]
      | cons a r i =>
        rw [tryBindArgs, bindArgs, ih a (by simp), i fun b hb => ih b (mem_cons_of_mem _ hb)]
    rw [tryBindAt, har, bindAt]
    rfl

theorem exists_ok_of_tryBindAt (h : tryBindAt f p t = .ok u) :
    ∀ x ∈ leavesAt p t, ∃ v, f x.1 x.2 = .ok v := by
  induction t using inductionOn generalizing p u with
  | leaf l =>
    simpa using ⟨u, h⟩
  | node n args ih =>
    rw [tryBindAt] at h
    obtain ⟨a', har⟩ : ∃ a', tryBindArgs f p n args = .ok a' := by
      cases har : tryBindArgs f p n args with
      | ok a' => exact ⟨a', rfl⟩
      | error e => rw [har] at h; cases h
    clear h
    induction args generalizing a' with
    | nil => simp
    | cons a r i =>
      rw [tryBindArgs] at har
      cases ha : tryBindAt f ((n, a.1) :: p) a.2 with
      | error e => simp [ha] at har
      | ok t' =>
        cases hr : tryBindArgs f p n r with
        | error e => simp [ha, hr] at har
        | ok r' =>
          intro x hx
          rcases mem_append.1 hx with hx | hx
          · exact ih a (by simp) ha x hx
          · exact i (fun b hb => ih b (mem_cons_of_mem _ hb)) r' hr x hx

/-- A fallible substitution succeeds iff it does so on every leaf. -/
theorem tryBindAt_eq_ok_iff :
    tryBindAt f p t = .ok u ↔
      (∀ x ∈ leavesAt p t, ∃ v, f x.1 x.2 = .ok v) ∧ u = bindAt (orLeaf f) p t := by
  constructor
  · intro h
    have ho := exists_ok_of_tryBindAt h
    rw [tryBindAt_eq_ok ho] at h
    exact ⟨ho, (Except.ok.inj h).symm⟩
  · rintro ⟨ho, rfl⟩
    exact tryBindAt_eq_ok ho

theorem tryBindAt_eq_ok_iff_exists :
    tryBindAt f p t = .ok u ↔
      ∃ g, (∀ x ∈ leavesAt p t, f x.1 x.2 = .ok (g x.1 x.2)) ∧ u = bindAt g p t := by
  rw [tryBindAt_eq_ok_iff]
  constructor
  · rintro ⟨ho, rfl⟩
    refine ⟨orLeaf f, fun x hx => ?_, rfl⟩
    obtain ⟨v, hv⟩ := ho x hx
    rw [orLeaf_of_ok hv, hv]
  · rintro ⟨g, hg, rfl⟩
    exact ⟨fun x hx => ⟨_, hg x hx⟩, bindAt_congr fun x hx => (orLeaf_of_ok (hg x hx)).symm⟩

theorem tryBindAt_eq_ok_iff_of_ok (h : tryBindAt f p t = .ok u) :
    tryBindAt f' p t = .ok u ↔ ∀ x ∈ leavesAt p t, f' x.1 x.2 = f x.1 x.2 := by
  obtain ⟨g, hg, rfl⟩ := tryBindAt_eq_ok_iff_exists.1 h
  rw [tryBindAt_eq_ok_iff_exists]
  constructor
  · rintro ⟨g', hg', heq⟩ x hx
    rw [hg x hx, hg' x hx, bindAt_eq_iff.1 heq x hx]
  · intro heq
    exact ⟨g, fun x hx => (heq x hx).trans (hg x hx), rfl⟩

theorem tryBindAt_bind_eq_ok_iff {g : Path N K → L → Except ε (SyntaxTree N K L)} :
    (tryBindAt f p t).bind (tryBindAt g p) = .ok u ↔
      tryBindAt (fun q l => (f q l).bind (tryBindAt g q)) p t = .ok u := by
  constructor
  · intro h
    cases ht : tryBindAt f p t with
    | error e =>
      rw [ht] at h
      cases h
    | ok t' =>
      rw [ht] at h
      obtain ⟨F, hF, rfl⟩ := tryBindAt_eq_ok_iff_exists.1 ht
      obtain ⟨G, hG, rfl⟩ := tryBindAt_eq_ok_iff_exists.1 h
      refine tryBindAt_eq_ok_iff_exists.2 ⟨_, fun x hx => ?_, bindAt_bindAt⟩
      rw [hF x hx]
      exact tryBindAt_eq_ok_iff_exists.2
        ⟨G, fun y hy => hG y (mem_leavesAt_bindAt.2 ⟨x, hx, hy⟩), rfl⟩
  · intro h
    obtain ⟨H, hH, rfl⟩ := tryBindAt_eq_ok_iff_exists.1 h
    have hs : ∀ x ∈ leavesAt p t, f x.1 x.2 = .ok (orLeaf f x.1 x.2) ∧
        tryBindAt g x.1 (orLeaf f x.1 x.2) = .ok (H x.1 x.2) := by
      intro x hx
      have hx' := hH x hx
      cases hf : f x.1 x.2 with
      | error e =>
        rw [hf] at hx'
        cases hx'
      | ok v =>
        rw [hf] at hx'
        rw [orLeaf_of_ok hf]
        exact ⟨rfl, hx'⟩
    rw [tryBindAt_eq_ok_iff_exists.2 ⟨orLeaf f, fun x hx => (hs x hx).1, rfl⟩]
    refine tryBindAt_eq_ok_iff.2 ⟨fun y hy => ?_, ?_⟩
    · obtain ⟨x, hx, hy⟩ := mem_leavesAt_bindAt.1 hy
      exact exists_ok_of_tryBindAt (hs x hx).2 y hy
    · rw [bindAt_bindAt]
      exact bindAt_congr fun x hx => (tryBindAt_eq_ok_iff.1 (hs x hx).2).2

theorem tryBindAt_ok (g : Path N K → L → SyntaxTree N K L) (t : SyntaxTree N K L) :
    tryBindAt (fun q l => (.ok (g q l) : Except ε _)) p t = .ok (bindAt g p t) :=
  tryBindAt_eq_ok_iff_exists.2 ⟨g, fun _ _ => rfl, rfl⟩

theorem tryBindAt_eq_ok_congr
    (hf : ∀ x ∈ leavesAt p t, ∀ v, f x.1 x.2 = .ok v ↔ f' x.1 x.2 = .ok v) :
    tryBindAt f p t = .ok u ↔ tryBindAt f' p t = .ok u := by
  simp only [tryBindAt_eq_ok_iff_exists]
  refine exists_congr fun g => and_congr_left fun _ => ?_
  exact forall₂_congr fun x hx => hf x hx _

theorem mem_leavesAt_tryBindAt (h : tryBindAt f p t = .ok u) {y : Path N K × L} :
    y ∈ leavesAt p u ↔ ∃ x ∈ leavesAt p t, ∃ v, f x.1 x.2 = .ok v ∧ y ∈ leavesAt x.1 v := by
  obtain ⟨g, hg, rfl⟩ := tryBindAt_eq_ok_iff_exists.1 h
  rw [mem_leavesAt_bindAt]
  refine exists_congr fun x => and_congr_right fun hx => ?_
  rw [hg x hx]
  simp

end TryBind

/-! ## Passes in a row -/

def tryBindAll (fs : List (Path N K → L → Except ε (SyntaxTree N K L))) (p : Path N K)
    (t : SyntaxTree N K L) : Except ε (SyntaxTree N K L) :=
  match fs with
  | [] => .ok t
  | f :: fs => (tryBindAt f p t).bind (tryBindAll fs p)

theorem tryBindAll_eq_ok_iff {fs : List (Path N K → L → Except ε (SyntaxTree N K L))}
    {t u : SyntaxTree N K L} :
    tryBindAll fs p t = .ok u ↔
      tryBindAt (fun q l => tryBindAll fs q (.leaf l)) p t = .ok u := by
  induction fs generalizing p t u with
  | nil =>
    have hs : tryBindAt (fun q l => tryBindAll [] q (.leaf l)) p t =
        (.ok t : Except ε (SyntaxTree N K L)) := by
      simp only [tryBindAll, tryBindAt_ok, bindAt_leaf_self]
    rw [hs, tryBindAll]
  | cons f fs ih =>
    have hr : ∀ (r : Except ε (SyntaxTree N K L)) (q : Path N K) (v : SyntaxTree N K L),
        r.bind (tryBindAt (fun q l => tryBindAll fs q (.leaf l)) q) = .ok v ↔
          r.bind (tryBindAll fs q) = .ok v := by
      intro r q v
      cases r with
      | error e => exact Iff.rfl
      | ok t' => exact ih.symm
    rw [tryBindAll, ← hr, tryBindAt_bind_eq_ok_iff]
    refine tryBindAt_eq_ok_congr fun x _ v => ?_
    rw [hr, tryBindAll, tryBindAt]

theorem tryBindAll_append {fs gs : List (Path N K → L → Except ε (SyntaxTree N K L))}
    {t : SyntaxTree N K L} :
    tryBindAll (fs ++ gs) p t = (tryBindAll fs p t).bind (tryBindAll gs p) := by
  induction fs generalizing t with
  | nil => rfl
  | cons f fs ih =>
    rw [cons_append, tryBindAll, tryBindAll]
    cases tryBindAt f p t with
    | error e => rfl
    | ok t' => exact ih

end SyntaxTree
