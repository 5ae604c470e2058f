import Bqemulator.Sql.Constructs

/-!
# Aggregates with `IGNORE NULLS` or `LIMIT`

Three passes rewrite array aggregates without nulls, array aggregates with a limit and string
aggregates with a limit. An aggregate inside of another of its kind stays; but the second pass also
takes the aggregate away from an `IGNORE NULLS` that the first has left.
-/

namespace Bqemulator

open SyntaxTree List Option

/-! ## The conditions -/

/-- The rule of the three passes. -/
def aggRule (t : QueryTree) : Option QueryTree :=
  (ignoreNullsRule t).or ((arrayAggLimitRule t).or (stringAggLimitRule t))

/-- The class of a node and the names of its arguments: what the rules see of a child. -/
def sketch : QueryTree → Option (Construct × List ArgName)
  | .leaf _ => none
  | .node n args => some (n, args.map Prod.fst)

/-- What the rules look at: the arguments, and the heads of the nodes below. -/
def sketches (args : List (ArgName × QueryTree)) :
    List (ArgName × Option (Construct × List ArgName)) :=
  args.map fun a => (a.1, sketch a.2)

/-- A `LIMIT` with its two arguments. -/
def isLimit (t : QueryTree) : Bool := sketch t = some (.limit, [.this, .expression])

variable {t op inner count : QueryTree} {rule : QueryTree → Option QueryTree}
  {n : Construct} {args : List (ArgName × QueryTree)}

theorem isLimit_iff : isLimit t = true ↔
    ∃ inner count, t = .node .limit [(.this, inner), (.expression, count)] := by
  constructor
  · intro h
    cases t with
    | leaf l => simp [isLimit, sketch] at h
    | node n a =>
      simp only [isLimit, sketch, decide_eq_true_eq, some.injEq, Prod.mk.injEq] at h
      obtain ⟨rfl, hk⟩ := h
      match a, hk with
      | [(k, inner), (k', count)], hk =>
        cases hk
        exact ⟨inner, count, rfl⟩
  · rintro ⟨inner, count, rfl⟩
    rfl

/-- **The aggregates around a tree**, of each kind. -/
structure Inside where
  nulls : Bool
  arrayLimit : Bool
  stringLimit : Bool

variable (i : Inside)

def Inside.enter (t : QueryTree) : Inside where
  nulls := i.nulls || (ignoreNullsRule t).isSome
  arrayLimit := i.arrayLimit || (arrayAggLimitRule t).isSome
  stringLimit := i.stringLimit || (stringAggLimitRule t).isSome

def limitInLimit : QueryTree → Bool
  | .node _ ((_, .node _ ((_, inner) :: _)) :: _) => isLimit inner
  | _ => false

def limitedBelow : QueryTree → Bool
  | .node _ ((_, agg) :: _) => (arrayAggLimitRule agg).isSome
  | _ => false

mutual

/-- **The aggregates are all rewritten**: none is inside of another of its kind, but that a limited
one also loses its `IGNORE NULLS`. -/
def Clean (i : Inside) : QueryTree → Prop
  | .leaf _ => True
  | .node n args =>
    ((ignoreNullsRule (.node n args)).isSome → i.nulls = true →
      limitedBelow (.node n args) = true ∧ i.arrayLimit = false) ∧
    ((arrayAggLimitRule (.node n args)).isSome →
      i.arrayLimit = false ∧ limitInLimit (.node n args) = false) ∧
    ((stringAggLimitRule (.node n args)).isSome →
      i.stringLimit = false ∧ limitInLimit (.node n args) = false) ∧
    CleanArgs (i.enter (.node n args)) args

def CleanArgs (i : Inside) : List (ArgName × QueryTree) → Prop
  | [] => True
  | (_, t) :: rest => Clean i t ∧ CleanArgs i rest

end

/-- A pass, if it gets to the tree. -/
def passUnless (inside : Bool) (rule : QueryTree → Option QueryTree) (t : QueryTree) : QueryTree :=
  if inside then t else topDown rule t

/-- What the passes make of a tree inside of aggregates. -/
def Inside.rewritten (t : QueryTree) : QueryTree :=
  passUnless i.stringLimit stringAggLimitRule
    (passUnless i.arrayLimit arrayAggLimitRule (passUnless i.nulls ignoreNullsRule t))

/-! ## What the rules see -/

/-- A node of class `c` whose first argument is a node of class `m` with the arguments `keys`, and
whose further arguments satisfy `P`. -/
def Headed (c m : Construct) (keys : List ArgName) (P : List ArgName → Prop) (n : Construct)
    (args : List (ArgName × QueryTree)) : Prop :=
  n = c ∧ ∃ rest, sketches args = (.this, some (m, keys)) :: rest ∧ P (rest.map Prod.fst)

theorem ignoreNullsRule_eq_none_iff : ignoreNullsRule (.node n args) = none ↔
    ¬ Headed .ignoreNulls .arrayAgg [.this] (· = []) n args := by
  unfold ignoreNullsRule
  split
  · rename_i heq
    cases heq
    simp [Headed, sketches, sketch]
  rename_i hno
  refine iff_of_true rfl ?_
  rintro ⟨rfl, r, h, hn⟩
  obtain rfl := map_eq_nil_iff.1 hn
  match args, h with
  | [(k, .node n [(k', op)])], h =>
    cases h
    exact hno op rfl

theorem arrayAggLimitRule_eq_none_iff : arrayAggLimitRule (.node n args) = none ↔
    ¬ Headed .arrayAgg .limit [.this, .expression] (· = []) n args := by
  unfold arrayAggLimitRule
  split
  · rename_i heq
    cases heq
    simp [Headed, sketches, sketch]
  rename_i hno
  refine iff_of_true rfl ?_
  rintro ⟨rfl, r, h, hn⟩
  obtain rfl := map_eq_nil_iff.1 hn
  match args, h with
  | [(k, .node n [(k₁, inner), (k₂, count)])], h =>
    cases h
    exact hno inner count rfl

theorem stringAggLimitRule_eq_none_iff : stringAggLimitRule (.node n args) = none ↔
    ¬ Headed .groupConcat .limit [.this, .expression]
      (fun names => names = [] ∨ names = [.separator])
      n args := by
  unfold stringAggLimitRule
  split
  · rename_i heq
    cases heq
    simp [Headed, sketches, sketch]
  · rename_i heq
    cases heq
    simp [Headed, sketches, sketch]
  rename_i hno hn'
  refine iff_of_true rfl ?_
  rintro ⟨rfl, r, h, hn | hn⟩
  · obtain rfl := map_eq_nil_iff.1 hn
    match args, h with
    | [(k, .node n [(k₁, inner), (k₂, count)])], h =>
      cases h
      exact hno inner count rfl
  · obtain ⟨⟨k, s⟩, rfl, rfl⟩ := map_eq_singleton_iff.1 hn
    match args, h with
    | [(k, .node n [(k₁, inner), (k₂, count)]), (k₃, separator)], h =>
      cases h
      exact hn' inner count separator rfl

/-- **A pass of a rule for aggregates**, as the rules see it: it leaves a node as it is, or makes a
filter or a call of an aggregate. -/
def Blurs (f : QueryTree → QueryTree) : Prop :=
  ∀ t, sketch (f t) = sketch t ∨ (isLimit t = false ∧
    ∃ n keys, sketch (f t) = some (n, keys) ∧ n ≠ .arrayAgg ∧ n ≠ .limit)

theorem blurs_topDown
    (hr : ∀ t replacement, rule t = some replacement → isLimit t = false ∧
      ∃ n keys, sketch replacement = some (n, keys) ∧ n ≠ .arrayAgg ∧ n ≠ .limit) :
    Blurs (topDown rule) := by
  intro t
  rcases topDown_cases t with ⟨l, rfl, h⟩ | ⟨n, a, rfl, -, h⟩ | ⟨replacement, hs, h⟩
  · rw [h]
    exact .inl rfl
  · rw [h, sketch, sketch, List.map_map]
    exact .inl rfl
  · rw [h]
    exact .inr (hr t replacement hs)

theorem blurs_id : Blurs id := fun _ => .inl rfl

theorem Blurs.comp {f g : QueryTree → QueryTree} (hg : Blurs g) (hf : Blurs f) :
    Blurs fun t => g (f t) := by
  intro t
  rcases hf t with hf | ⟨hl, n, k, hf, ha, hn⟩
  · rcases hg (f t) with hg | ⟨hl, hg⟩
    · exact .inl (hg.trans hf)
    · exact .inr ⟨by rwa [isLimit, hf] at hl, hg⟩
  · rcases hg (f t) with hg | ⟨-, hg⟩
    · exact .inr ⟨hl, n, k, hg.trans hf, ha, hn⟩
    · exact .inr ⟨hl, hg⟩

theorem blurs_passUnless (i : Bool) (h : Blurs (topDown rule)) :
    Blurs (passUnless i rule) := by
  cases i with
  | true => exact blurs_id
  | false => exact h

theorem blurs_ignoreNullsRule : Blurs (topDown ignoreNullsRule) := by
  apply blurs_topDown
  intro t r h
  unfold ignoreNullsRule at h
  split at h
  · cases h
    exact ⟨rfl, _, _, rfl, nofun, nofun⟩
  · cases h

theorem blurs_arrayAggLimitRule : Blurs (topDown arrayAggLimitRule) := by
  apply blurs_topDown
  intro t r h
  unfold arrayAggLimitRule at h
  split at h
  · cases h
    exact ⟨rfl, _, _, rfl, nofun, nofun⟩
  · cases h

theorem blurs_stringAggLimitRule : Blurs (topDown stringAggLimitRule) := by
  apply blurs_topDown
  intro t r h
  unfold stringAggLimitRule at h
  split at h
  · cases h
    exact ⟨rfl, _, _, rfl, nofun, nofun⟩
  · cases h
    exact ⟨rfl, _, _, rfl, nofun, nofun⟩
  · cases h

theorem Inside.blurs_rewritten : Blurs i.rewritten :=
  (blurs_passUnless _ blurs_stringAggLimitRule).comp
    ((blurs_passUnless _ blurs_arrayAggLimitRule).comp (blurs_passUnless _ blurs_ignoreNullsRule))

section Blurs

variable {f : QueryTree → QueryTree} (hf : Blurs f)

include hf

variable {keys : List ArgName}

theorem Blurs.sketch_eq {n : Construct} (hn : n = .arrayAgg ∨ n = .limit)
    (h : sketch (f t) = some (n, keys)) : sketch t = some (n, keys) := by
  rcases hf t with heq | ⟨-, n', k', heq, ha, hl⟩
  · exact heq.symm.trans h
  rw [heq] at h
  cases h
  rcases hn with rfl | rfl
  · exact absurd rfl ha
  · exact absurd rfl hl

/-- A pass makes no limit and takes none away. -/
theorem Blurs.isLimit_eq (t : QueryTree) : isLimit (f t) = isLimit t := by
  rcases hf t with heq | ⟨hl, n, k, heq, -, hn⟩
  · rw [isLimit, heq, isLimit]
  · rw [hl, isLimit, heq]
    simp [hn]

theorem Blurs.sketches_eq {k : ArgName} {n : Construct}
    {r : List (ArgName × Option (Construct × List ArgName))} (hn : n = .arrayAgg ∨ n = .limit)
    (h : sketches (args.map fun a => (a.1, f a.2)) = (k, some (n, keys)) :: r) :
    ∃ rest', sketches args = (k, some (n, keys)) :: rest' ∧
      rest'.map Prod.fst = r.map Prod.fst := by
  cases args with
  | nil => cases h
  | cons a args =>
    simp only [sketches, List.map_cons, List.map_map, List.cons.injEq, Prod.mk.injEq] at h
    obtain ⟨⟨rfl, hs⟩, rfl⟩ := h
    refine ⟨sketches args, ?_, ?_⟩
    · rw [sketches, List.map_cons, hf.sketch_eq hn hs, sketches]
    · rw [sketches, List.map_map, List.map_map]
      rfl

theorem Blurs.map_eq_none {c m : Construct} {P : List ArgName → Prop}
    (hr : ∀ {n args}, rule (.node n args) = none ↔ ¬ Headed c m keys P n args)
    (hm : m = .arrayAgg ∨ m = .limit) (h : rule (.node n args) = none) :
    rule (.node n (args.map fun a => (a.1, f a.2))) = none := by
  rw [hr] at h ⊢
  rintro ⟨rfl, r, ha, hn⟩
  obtain ⟨r', hre, hk⟩ := hf.sketches_eq hm ha
  exact h ⟨rfl, r', hre, hk ▸ hn⟩

end Blurs

theorem aggRule_eq_none_iff : aggRule t = none ↔
    ignoreNullsRule t = none ∧ arrayAggLimitRule t = none ∧ stringAggLimitRule t = none := by
  simp [aggRule]

theorem passUnless_of_none {i : Bool} (h : rule (.node n args) = none) :
    passUnless i rule (.node n args) =
      .node n (args.map fun a => (a.1, passUnless i rule a.2)) := by
  cases i with
  | true => simp [passUnless]
  | false =>
    simp only [passUnless, Bool.false_eq_true, if_false]
    rw [topDown, h, ← topDownArgs_eq_map]

/-- The passes go on below a node that no rule matches. -/
theorem Inside.rewritten_of_none (h : aggRule (.node n args) = none) :
    i.rewritten (.node n args) = .node n (args.map fun a => (a.1, i.rewritten a.2)) := by
  obtain ⟨hn, ha, hs⟩ := aggRule_eq_none_iff.1 h
  have hf := blurs_passUnless i.nulls blurs_ignoreNullsRule
  have hg := blurs_passUnless i.arrayLimit blurs_arrayAggLimitRule
  have hs' := hf.map_eq_none stringAggLimitRule_eq_none_iff (.inr rfl) hs
  rw [rewritten, passUnless_of_none hn,
    passUnless_of_none (hf.map_eq_none arrayAggLimitRule_eq_none_iff (.inr rfl) ha),
    passUnless_of_none (hg.map_eq_none stringAggLimitRule_eq_none_iff (.inr rfl) hs'),
    List.map_map, List.map_map]
  rfl

def limited (inner count : QueryTree) : QueryTree :=
  .node .limit [(.this, inner), (.expression, count)]

def aggOfNulls (operand : QueryTree) : QueryTree :=
  .node .ignoreNulls [(.this, arrayAgg operand)]

def limitedConcat (inner count : QueryTree) (separator : Option QueryTree) : QueryTree :=
  .node .groupConcat ((.this, limited inner count) ::
    (separator.map fun s => (ArgName.separator, s)).toList)

def joinedAgg (inner count : QueryTree) (separator : Option QueryTree) : QueryTree :=
  anonymous "ARRAY_TO_STRING" [slicedAgg inner count, separator.getD (.leaf (.literal ","))]

/-- The three shapes of a match. -/
theorem aggRule_cases (t : QueryTree) : aggRule t = none ∨ (∃ op, t = aggOfNulls op) ∨
    (∃ inner count, t = arrayAgg (limited inner count)) ∨
      ∃ inner count separator, t = limitedConcat inner count separator := by
  rw [aggRule_eq_none_iff]
  by_cases hn : ignoreNullsRule t = none
  · by_cases ha : arrayAggLimitRule t = none
    · by_cases hs : stringAggLimitRule t = none
      · exact .inl ⟨hn, ha, hs⟩
      refine .inr (.inr (.inr ?_))
      unfold stringAggLimitRule at hs
      split at hs
      · exact ⟨_, _, none, rfl⟩
      · exact ⟨_, _, some _, rfl⟩
      · exact absurd rfl hs
    · refine .inr (.inr (.inl ?_))
      unfold arrayAggLimitRule at ha
      split at ha
      · exact ⟨_, _, rfl⟩
      · exact absurd rfl ha
  · refine .inr (.inl ?_)
    unfold ignoreNullsRule at hn
    split at hn
    · exact ⟨_, rfl⟩
    · exact absurd rfl hn

section Rewritten

variable {i : Inside}

theorem Inside.rewritten_limited (inner count : QueryTree) :
    i.rewritten (limited inner count) = limited (i.rewritten inner) (i.rewritten count) :=
  i.rewritten_of_none rfl

theorem arrayAggLimitRule_isSome :
    (arrayAggLimitRule (arrayAgg op)).isSome = isLimit op := by
  cases h : isLimit op with
  | true =>
    obtain ⟨inner, count, rfl⟩ := isLimit_iff.1 h
    rfl
  | false =>
    rw [isSome_eq_false_iff, isNone_iff_eq_none, arrayAgg, arrayAggLimitRule_eq_none_iff]
    rintro ⟨-, r, ha, -⟩
    simp only [sketches, map_cons, cons.injEq, Prod.mk.injEq] at ha
    simp [isLimit, ha] at h

theorem aggRule_arrayAgg_eq_none_iff :
    aggRule (arrayAgg op) = none ↔ isLimit op = false := by
  rw [aggRule_eq_none_iff, ← arrayAggLimitRule_isSome, isSome_eq_false_iff, isNone_iff_eq_none]
  exact ⟨fun h => h.2.1, fun h => ⟨rfl, h, rfl⟩⟩

theorem Inside.rewritten_arrayAgg (h : i.arrayLimit = true ∨ isLimit op = false) :
    i.rewritten (arrayAgg op) = arrayAgg (i.rewritten op) := by
  rcases h with h | h
  · have hp : passUnless i.nulls ignoreNullsRule (arrayAgg op) =
        arrayAgg (passUnless i.nulls ignoreNullsRule op) := passUnless_of_none rfl
    rw [rewritten, rewritten, hp, h]
    exact passUnless_of_none rfl
  · exact i.rewritten_of_none (aggRule_arrayAgg_eq_none_iff.2 h)

theorem Inside.rewritten_nulls_of_inside (h : i.nulls = true) (o : QueryTree) :
    i.rewritten (aggOfNulls o) =
      .node .ignoreNulls [(.this, i.rewritten (arrayAgg o))] := by
  have hp : passUnless i.arrayLimit arrayAggLimitRule (aggOfNulls o) = .node .ignoreNulls
        [(.this, passUnless i.arrayLimit arrayAggLimitRule (arrayAgg o))] :=
    passUnless_of_none rfl
  rw [rewritten, rewritten, h]
  exact (congrArg _ hp).trans (passUnless_of_none rfl)

theorem Inside.rewritten_nulls (h : i.nulls = false) (o : QueryTree) :
    i.rewritten (aggOfNulls o) =
      withoutNulls ({ i with nulls := true }.rewritten (arrayAgg o))
        ({ i with nulls := true }.rewritten (filterTarget o)) := by
  have hp : passUnless i.nulls ignoreNullsRule (aggOfNulls o) =
      withoutNulls (arrayAgg o) (filterTarget o) := by
    rw [h]
    rfl
  have hb : ∀ a target, { i with nulls := true }.rewritten (withoutNulls a target) =
      withoutNulls ({ i with nulls := true }.rewritten a)
        ({ i with nulls := true }.rewritten target) := by
    intro a target
    simp only [withoutNulls]
    iterate 5 rw [rewritten_of_none _ (by rfl)]; simp only [map_cons, map_nil]
  rw [rewritten, hp]
  exact hb _ _

theorem Inside.rewritten_arrayLimit (h : i.arrayLimit = false) (inner count : QueryTree) :
    i.rewritten (arrayAgg (limited inner count)) =
      slicedAgg ({ i with arrayLimit := true }.rewritten inner)
        ({ i with arrayLimit := true }.rewritten count) := by
  have hn : ∀ b, passUnless b ignoreNullsRule (arrayAgg (limited inner count)) =
      arrayAgg (limited (passUnless b ignoreNullsRule inner)
        (passUnless b ignoreNullsRule count)) :=
    fun b => by cases b <;> rfl
  have hs : ∀ b x y, passUnless b stringAggLimitRule (slicedAgg x y) =
      slicedAgg (passUnless b stringAggLimitRule x) (passUnless b stringAggLimitRule y) :=
    fun b _ _ => by cases b <;> rfl
  rw [rewritten, hn, h]
  exact hs _ _ _

theorem Inside.rewritten_limitedConcat (inner count : QueryTree) (s : Option QueryTree) :
    i.rewritten (limitedConcat inner count s) = passUnless i.stringLimit stringAggLimitRule
      (limitedConcat ({ i with stringLimit := true }.rewritten inner)
        ({ i with stringLimit := true }.rewritten count)
        (s.map { i with stringLimit := true }.rewritten)) := by
  have hn : ∀ b, passUnless b ignoreNullsRule (limitedConcat inner count s) =
      limitedConcat (passUnless b ignoreNullsRule inner) (passUnless b ignoreNullsRule count)
        (s.map (passUnless b ignoreNullsRule)) :=
    fun b => by cases b <;> cases s <;> rfl
  have ha : ∀ b x y z, passUnless b arrayAggLimitRule (limitedConcat x y z) =
      limitedConcat (passUnless b arrayAggLimitRule x) (passUnless b arrayAggLimitRule y)
        (z.map (passUnless b arrayAggLimitRule)) :=
    fun b _ _ z => by cases b <;> cases z <;> rfl
  rw [rewritten, hn, ha, Option.map_map]
  rfl

theorem Inside.rewritten_stringLimit (h : i.stringLimit = false) (inner count : QueryTree)
    (s : Option QueryTree) :
    i.rewritten (limitedConcat inner count s) =
      joinedAgg ({ i with stringLimit := true }.rewritten inner)
        ({ i with stringLimit := true }.rewritten count)
        (s.map { i with stringLimit := true }.rewritten) := by
  rw [rewritten_limitedConcat, h]
  cases s <;> rfl

end Rewritten

/-! ## What is left -/

variable {i : Inside}

theorem cleanArgs_iff : ∀ args : List (ArgName × QueryTree),
    CleanArgs i args ↔ ∀ a ∈ args, Clean i a.2
  | [] => by simp [CleanArgs]
  | (_, t) :: rest => by simp [CleanArgs, cleanArgs_iff rest]

section Clean

variable {i : Inside}

theorem clean_of_none (h : aggRule (.node n args) = none) :
    Clean i (.node n args) ↔ ∀ a ∈ args, Clean i a.2 := by
  obtain ⟨hn, ha, hs⟩ := aggRule_eq_none_iff.1 h
  have he : i.enter (.node n args) = i := by
    simp [Inside.enter, hn, ha, hs]
  rw [Clean, he, cleanArgs_iff]
  simp [hn, ha, hs]

theorem clean_limited : Clean i (limited inner count) ↔ Clean i inner ∧ Clean i count := by
  rw [limited, clean_of_none rfl]
  simp

attribute [local simp] ignoreNullsRule arrayAggLimitRule stringAggLimitRule limitInLimit

/-- When an array aggregate with a limit is clean. -/
theorem clean_arrayLimit : Clean i (arrayAgg (limited inner count)) ↔
    i.arrayLimit = false ∧ isLimit inner = false ∧ Clean { i with arrayLimit := true } inner ∧
      Clean { i with arrayLimit := true } count := by
  have he : i.enter (arrayAgg (limited inner count)) = { i with arrayLimit := true } := by
    simp [Inside.enter, arrayAgg, limited]
  rw [arrayAgg] at he ⊢
  rw [Clean, he, cleanArgs_iff, forall_mem_singleton, clean_limited]
  simp [limited, and_assoc]

theorem clean_stringLimit {sep : Option QueryTree} :
    Clean i (limitedConcat inner count sep) ↔
      i.stringLimit = false ∧ isLimit inner = false ∧ Clean { i with stringLimit := true } inner ∧
        Clean { i with stringLimit := true } count ∧
          ∀ s ∈ sep, Clean { i with stringLimit := true } s := by
  have he : i.enter (limitedConcat inner count sep) = { i with stringLimit := true } := by
    cases sep <;> simp [Inside.enter, limitedConcat, limited]
  rw [limitedConcat] at he ⊢
  rw [Clean, he, cleanArgs_iff, forall_mem_cons, clean_limited]
  cases sep <;> simp [limited, and_assoc]

/-- When an aggregate without nulls is clean. -/
theorem clean_nulls : Clean i (aggOfNulls op) ↔
    (i.nulls = true → isLimit op = true ∧ i.arrayLimit = false) ∧
      Clean { i with nulls := true } (arrayAgg op) := by
  have he : i.enter (aggOfNulls op) = { i with nulls := true } := by
    simp [Inside.enter, aggOfNulls, arrayAgg]
  rw [aggOfNulls] at he ⊢
  rw [Clean, he, cleanArgs_iff, forall_mem_singleton, limitedBelow, arrayAggLimitRule_isSome]
  simp [arrayAgg]

end Clean

/-- Fewer aggregates around a tree. -/
structure Inside.Le (j i : Inside) : Prop where
  nulls : j.nulls = true → i.nulls = true
  arrayLimit : j.arrayLimit = true → i.arrayLimit = true
  stringLimit : j.stringLimit = true → i.stringLimit = true

theorem Inside.le_enter (i : Inside) (t : QueryTree) : i.Le (i.enter t) where
  nulls h := by simp [enter, h]
  arrayLimit h := by simp [enter, h]
  stringLimit h := by simp [enter, h]

theorem Inside.Le.enter {j : Inside} (h : j.Le i) (t : QueryTree) : (j.enter t).Le (i.enter t) where
  nulls := by
    simp only [Inside.enter, Bool.or_eq_true]
    exact Or.imp_left h.nulls
  arrayLimit := by
    simp only [Inside.enter, Bool.or_eq_true]
    exact Or.imp_left h.arrayLimit
  stringLimit := by
    simp only [Inside.enter, Bool.or_eq_true]
    exact Or.imp_left h.stringLimit

/-- A tree is clean inside of fewer aggregates. -/
theorem Clean.mono : ∀ {i j : Inside}, j.Le i → Clean i t → Clean j t := by
  induction t using inductionOn with
  | leaf l => exact fun _ _ => trivial
  | node n args ih =>
    intro i j hle h
    have hl : ∀ {b c : Bool}, (c = true → b = true) → b = false → c = false := by decide
    rw [Clean, cleanArgs_iff] at h ⊢
    obtain ⟨hn, har, hst, has⟩ := h
    refine ⟨fun hs hj => ?_, fun hs => ?_, fun hs => ?_, fun a ha => ?_⟩
    · obtain ⟨hli, hi⟩ := hn hs (hle.nulls hj)
      exact ⟨hli, hl hle.arrayLimit hi⟩
    · exact ⟨hl hle.arrayLimit (har hs).1, (har hs).2⟩
    · exact ⟨hl hle.stringLimit (hst hs).1, (hst hs).2⟩
    · exact ih a ha (hle.enter _) (has a ha)

theorem Clean.arg (h : Clean i (.node n args)) {a : ArgName × QueryTree}
    (ha : a ∈ args) : Clean i a.2 := by
  rw [Clean, cleanArgs_iff] at h
  exact (h.2.2.2 a ha).mono (i.le_enter _)

theorem Clean.filterTarget (h : Clean i (arrayAgg op)) :
    Clean i (filterTarget op) := by
  have ho : Clean i op := h.arg mem_cons_self
  unfold Bqemulator.filterTarget
  split
  · exact ho.arg mem_cons_self
  · exact ho

theorem free_slicedAgg_iff : Free aggRule (slicedAgg inner count) ↔
    isLimit inner = false ∧ Free aggRule inner ∧ Free aggRule count := by
  rw [slicedAgg, free_anonymous_iff rfl, arrayAgg]
  simp only [forall_mem_cons, Free, FreeArgs]
  rw [show aggRule (.node .arrayAgg [(.this, inner)]) = none ↔ _ from aggRule_arrayAgg_eq_none_iff]
  simp [and_assoc]

theorem free_withoutNulls_iff {a target : QueryTree} :
    Free aggRule (withoutNulls a target) ↔ Free aggRule a ∧ Free aggRule target := by
  simp [withoutNulls, Free, FreeArgs, aggRule, ignoreNullsRule, arrayAggLimitRule,
    stringAggLimitRule]

theorem sizeOf_arg_lt {k : ArgName}
    (h : (k, t) ∈ args) : sizeOf t < sizeOf (node n args : QueryTree) := by
  have := sizeOf_lt_of_mem h
  simp only [Prod.mk.sizeOf_spec, node.sizeOf_spec] at *
  omega

theorem sizeOf_filterTarget_le (o : QueryTree) :
    sizeOf (filterTarget o) ≤ sizeOf o := by
  unfold filterTarget
  split
  · exact Nat.le_of_lt (sizeOf_arg_lt mem_cons_self)
  · exact Nat.le_refl _

theorem not_free_of_rule (h : aggRule t ≠ none) : ¬ Free aggRule t := by
  cases t with
  | leaf l => exact absurd rfl h
  | node =>
    exact fun hfr => h hfr.1

theorem aggRule_nulls_eq_none_iff :
    aggRule (.node .ignoreNulls [(.this, i.rewritten (arrayAgg op))]) = none ↔
      isLimit op = true ∧ i.arrayLimit = false := by
  by_cases hk : i.arrayLimit = true ∨ isLimit op = false
  · rw [Inside.rewritten_arrayAgg hk]
    refine iff_of_false nofun ?_
    rintro ⟨hl, ha⟩
    rcases hk with hk | hk
    · exact absurd (hk.symm.trans ha) nofun
    · exact absurd (hk.symm.trans hl) nofun
  · simp only [not_or, Bool.not_eq_true, Bool.not_eq_false] at hk
    obtain ⟨inner, count, rfl⟩ := isLimit_iff.1 hk.2
    refine iff_of_true ?_ hk.symm
    have h := Inside.rewritten_arrayLimit hk.1 inner count
    rw [limited] at h
    rw [h]
    rfl

/-- The passes leave no aggregate iff the tree is clean. -/
theorem free_rewritten_iff (t : QueryTree) :
    ∀ i : Inside, Free aggRule (i.rewritten t) ↔ Clean i t := by
  -- the filter holds a second copy of a value: the induction is on the size of the tree
  induction hs : sizeOf t using Nat.strongRecOn generalizing t with
  | ind size ih =>
  subst hs
  have ih : ∀ t', sizeOf t' < sizeOf t → ∀ i : Inside, Free aggRule (i.rewritten t') ↔ Clean i t' :=
    fun t' hlt => ih _ hlt t' rfl
  intro i
  cases t with
  | leaf l =>
    have hl : i.rewritten (.leaf l) = .leaf l := by
      rcases i with ⟨_ | _, _ | _, _ | _⟩ <;> rfl
    rw [hl, Free, Clean]
  | node n args =>
  have ihArg : ∀ a ∈ args, ∀ i : Inside, Free aggRule (i.rewritten a.2) ↔ Clean i a.2 :=
    fun a ha => ih a.2 (sizeOf_arg_lt ha)
  rcases aggRule_cases (.node n args) with h | ⟨o, h⟩ | ⟨inner, count, h⟩ |
    ⟨inner, count, separator, h⟩
  · rw [clean_of_none h, i.rewritten_of_none h, Free, freeArgs_iff, List.forall_mem_map]
    obtain ⟨hnu, har, hst⟩ := aggRule_eq_none_iff.1 h
    have hf := i.blurs_rewritten
    have hn : aggRule (.node n (args.map fun a => (a.1, i.rewritten a.2))) = none :=
      aggRule_eq_none_iff.2 ⟨hf.map_eq_none ignoreNullsRule_eq_none_iff (.inl rfl) hnu,
        hf.map_eq_none arrayAggLimitRule_eq_none_iff (.inr rfl) har,
        hf.map_eq_none stringAggLimitRule_eq_none_iff (.inr rfl) hst⟩
    rw [and_iff_right hn]
    exact forall₂_congr fun a ha => ihArg a ha i
  · have hlt : sizeOf (arrayAgg o) < sizeOf (node n args : QueryTree) := by
      rw [h]
      exact sizeOf_arg_lt mem_cons_self
    have hlO : sizeOf o < sizeOf (arrayAgg o) :=
      sizeOf_arg_lt mem_cons_self
    have ihAgg := ih _ hlt
    have ihTarget := ih _ (Nat.lt_of_le_of_lt (sizeOf_filterTarget_le o) (Nat.lt_trans hlO hlt))
    rw [h, clean_nulls]
    cases hi : i.nulls with
    | true =>
      have hsa : { i with nulls := true } = i := by rw [← hi]
      rw [Inside.rewritten_nulls_of_inside hi, Free, FreeArgs, FreeArgs, and_true,
        aggRule_nulls_eq_none_iff, ihAgg, hsa]
      simp
    | false =>
      rw [Inside.rewritten_nulls hi, free_withoutNulls_iff, ihAgg, ihTarget]
      simp only [Bool.false_eq_true, false_implies, true_and, and_iff_left_iff_imp]
      exact Clean.filterTarget
  · rw [h] at ih ⊢
    have hlt : sizeOf (limited inner count) < sizeOf (arrayAgg (limited inner count)) :=
      sizeOf_arg_lt mem_cons_self
    have ihInner := ih inner (Nat.lt_trans (sizeOf_arg_lt mem_cons_self) hlt)
    have ihCount := ih count
      (Nat.lt_trans (sizeOf_arg_lt (mem_cons_of_mem _ mem_cons_self)) hlt)
    rw [clean_arrayLimit]
    cases hi : i.arrayLimit with
    | true =>
      rw [Inside.rewritten_arrayAgg (.inl hi), Inside.rewritten_limited]
      exact iff_of_false (not_free_of_rule fun h => by cases h) fun h => by cases h.1
    | false =>
      rw [Inside.rewritten_arrayLimit hi, free_slicedAgg_iff, ihInner, ihCount,
        (Inside.blurs_rewritten _).isLimit_eq]
      simp
  · rw [h] at ih ⊢
    have hlt : sizeOf (limited inner count) < sizeOf (limitedConcat inner count separator) :=
      sizeOf_arg_lt mem_cons_self
    have ihInner := ih inner (Nat.lt_trans (sizeOf_arg_lt mem_cons_self) hlt)
    have ihCount := ih count
      (Nat.lt_trans (sizeOf_arg_lt (mem_cons_of_mem _ mem_cons_self)) hlt)
    rw [clean_stringLimit]
    cases hi : i.stringLimit with
    | true =>
      rw [Inside.rewritten_limitedConcat, hi]
      refine iff_of_false (not_free_of_rule ?_) fun h => by cases h.1
      cases separator <;> exact fun h => by cases h
    | false =>
      rw [Inside.rewritten_stringLimit hi, joinedAgg, free_anonymous_iff rfl]
      simp only [forall_mem_cons, free_slicedAgg_iff, ihInner, ihCount,
        (Inside.blurs_rewritten _).isLimit_eq, and_assoc]
      cases separator with
      | none => simp [Free]
      | some s =>
        have ihSeparator := ih s (sizeOf_arg_lt (mem_cons_of_mem _ mem_cons_self))
        simp [ihSeparator]

/-! ## The passes -/

/-- **A pass can remove its construct**: the text mentions it and no occurrence is kept inside of
another, or there is none. -/
def Removable (rule : QueryTree → Option QueryTree) (mentioned : Bool) (t : QueryTree) : Prop :=
  (mentioned = true → Flat rule keptParts t) ∧ (mentioned = false → Free rule t)

/-- The passes get to all aggregates of a text. -/
def AggregatesRemovable (mentioned : Bool) (t : QueryTree) : Prop :=
  (mentioned = true → Clean ⟨false, false, false⟩ t) ∧ (mentioned = false → Free aggRule t)

/-- The constructs that a text mentions. -/
structure Mentioned where
  safe : Bool
  sha512 : Bool
  struct : Bool
  aggregates : Bool

section Passes

variable {walk : QueryTree → List Position} (hwalk : ∀ t, IsWalk t (walk t))

include hwalk

theorem rewriteMentioned_true (r : QueryTree → Option QueryTree) (t : QueryTree) :
    rewriteMentioned walk r true t = topDown r t :=
  runPass_eq_topDown (hwalk t)

theorem free_rewriteMentioned_iff (hr : ∀ t, Free rule (topDown rule t) ↔ Flat rule keptParts t)
    (m : Bool) (t : QueryTree) :
    Free rule (rewriteMentioned walk rule m t) ↔ Removable rule m t := by
  cases m with
  | true => simp [rewriteMentioned_true hwalk, Removable, hr]
  | false => simp [rewriteMentioned, Removable]

theorem free_rewriteAggregateVariants_iff (m : Bool) (t : QueryTree) :
    Free aggRule (rewriteAggregateVariants walk m t) ↔ AggregatesRemovable m t := by
  cases m with
  | true =>
    have hp : rewriteAggregateVariants walk true t =
        Inside.rewritten ⟨false, false, false⟩ t := by
      rw [rewriteAggregateVariants, rewriteMentioned_true hwalk, rewriteMentioned_true hwalk,
        rewriteMentioned_true hwalk]
      rfl
    rw [hp, free_rewritten_iff]
    simp [AggregatesRemovable]
  | false => simp [rewriteAggregateVariants, rewriteMentioned, AggregatesRemovable]

/-- **What the passes remove**: each leaves no occurrence of its construct iff the query has none
that another keeps. -/
theorem constructs_removed_iff (q : ParsedQuery) (m : Mentioned) :
    (Free safeRule (rewriteSafeHelpers walk m.safe q.tree) ↔ Removable safeRule m.safe q.tree) ∧
    (Free sha512Rule (rewriteSha512 walk m.sha512 q.tree) ↔
      Removable sha512Rule m.sha512 q.tree) ∧
    (Free structRule (rewriteStructHelpers walk m.struct q.tree) ↔
      Removable structRule m.struct q.tree) ∧
    (Free aggRule (rewriteAggregateVariants walk m.aggregates q.tree) ↔
      AggregatesRemovable m.aggregates q.tree) := by
  refine ⟨?_, ?_, ?_, ?_⟩
  · exact free_rewriteMentioned_iff hwalk free_safeRule_iff m.safe q.tree
  · exact free_rewriteMentioned_iff hwalk free_sha512Rule_iff m.sha512 q.tree
  · exact free_rewriteMentioned_iff hwalk free_structRule_iff m.struct q.tree
  · exact free_rewriteAggregateVariants_iff hwalk m.aggregates q.tree

end Passes

def selecting (e : QueryTree) : ParsedQuery := ⟨"Select", [(.expressions, e)]⟩

def safeCall (f : String) (x : QueryTree) : QueryTree :=
  .node .safeFunc [(.this, .node (.other f) [(.this, x)])]

variable (x : QueryTree)

def sha512Call : QueryTree :=
  .node .sha2 [(.this, x), (.length, .leaf (.literal "512"))]

def structOf : QueryTree :=
  .node .struct [(.expressions, x), (.expressions, .leaf (.literal "1"))]

def firstTwo : QueryTree :=
  arrayAgg (limited x (.leaf (.literal "2")))

/-- One of each construct, inside of each other. -/
def nestedOnce : ParsedQuery :=
  selecting (safeCall "LN" (sha512Call (structOf (firstTwo (.leaf (.name "x"))))))

attribute [local simp] selecting ParsedQuery.tree safeCall sha512Call structOf firstTwo arrayAgg
  limited Flat FlatArgs Free FreeArgs Clean CleanArgs Inside.enter safeRule sha512Rule isOtherLength
  structRule structFields isPropertyEq keptParts ignoreNullsRule arrayAggLimitRule
  stringAggLimitRule limitInLimit isLimit sketch

theorem constructs_removed_nestedOnce :
    Free safeRule (rewriteSafeHelpers (positionsAt []) true nestedOnce.tree) ∧
    Free sha512Rule (rewriteSha512 (positionsAt []) true nestedOnce.tree) ∧
    Free structRule (rewriteStructHelpers (positionsAt []) true nestedOnce.tree) ∧
    Free aggRule (rewriteAggregateVariants (positionsAt []) true nestedOnce.tree) := by
  have h := constructs_removed_iff isWalk_positionsAt nestedOnce ⟨true, true, true, true⟩
  rw [h.1, h.2.1, h.2.2.1, h.2.2.2]
  refine ⟨⟨fun _ => ?_, nofun⟩, ⟨fun _ => ?_, nofun⟩, ⟨fun _ => ?_, nofun⟩, fun _ => ?_, nofun⟩
  · simp [nestedOnce]
  · simp [nestedOnce]
  · simp [nestedOnce]
  · simp [nestedOnce]

theorem constructs_left_nested :
    ¬ Free safeRule (rewriteSafeHelpers (positionsAt []) true
      (selecting (safeCall "LN" (safeCall "SQRT" (.leaf (.name "x"))))).tree) ∧
    ¬ Free sha512Rule (rewriteSha512 (positionsAt []) true
      (selecting (sha512Call (sha512Call (.leaf (.name "x"))))).tree) ∧
    ¬ Free structRule (rewriteStructHelpers (positionsAt []) true
      (selecting (structOf (structOf (.leaf (.name "x"))))).tree) ∧
    ¬ Free aggRule (rewriteAggregateVariants (positionsAt []) true
      (selecting (firstTwo (selecting (firstTwo (.leaf (.name "x")))).tree)).tree) := by
  have hwalk := isWalk_positionsAt (N := Construct) (K := ArgName) (L := Word)
  refine ⟨fun hfr => ?_, fun hfr => ?_, fun hfr => ?_, fun hfr => ?_⟩
  · have h := ((free_rewriteMentioned_iff hwalk free_safeRule_iff _ _).1 hfr).1 rfl
    simp at h
  · have h := ((free_rewriteMentioned_iff hwalk free_sha512Rule_iff _ _).1 hfr).1 rfl
    simp at h
  · have h := ((free_rewriteMentioned_iff hwalk free_structRule_iff _ _).1 hfr).1 rfl
    simp at h
  · have h := ((free_rewriteAggregateVariants_iff hwalk _ _).1 hfr).1 rfl
    simp at h

end Bqemulator
