import Bqemulator.Scripting.Traversal

/-!
# Assignments to several variables

`SET (v, …) = (…)` and `EXECUTE IMMEDIATE … INTO v, …` compute a row and then assign its values one
after another. A target that is not declared stops the rest; `SET` takes the first of several rows;
and columns of one name are one value.
-/

namespace Bqemulator

open Comp Except List Option

/-! ## Variables after assignments -/

def lookup (name : String) : List Frame → Option Value
  | [] => none
  | frame :: rest =>
    if name ∈ frame.names then (frame.vars.find? fun x => x.1 = name).map fun x => x.2.value
    else lookup name rest

def lastOf : List (String × Value) → String → Option Value
  | [], _ => none
  | (name, value) :: rest, m => (lastOf rest m).or (if m = name then some value else none)

def isDeclared (frames : List Frame) (x : String × Value) : Bool := (lookup x.1 frames).isSome

variable {name : String} {frames : List Frame}

theorem find?_isSome {frame : Frame} (h : name ∈ frame.names) :
    (frame.vars.find? fun x => x.1 = name).isSome := by
  obtain ⟨x, hx, rfl⟩ := mem_map.1 h
  exact find?_isSome.2 ⟨x, hx, by simp⟩

variable {value : Value} {frames' : List Frame} {row : List Scalar}

theorem lookup_assign (h : assign name value frames = .ok frames') (m : String) :
    lookup m frames' = if m = name then some value else lookup m frames := by
  induction frames generalizing frames' with
  | nil => cases h
  | cons frame r ih =>
    rw [assign] at h
    split at h
    · next hme =>
      obtain rfl := ok.inj h
      rw [lookup, lookup, names_assign, Frame.assign, find?_map]
      have hk : ((fun x : String × Variable => decide (x.1 = m)) ∘ fun x =>
          if x.1 = name then (x.1, { x.2 with value }) else x) = fun x => decide (x.1 = m) := by
        funext x
        by_cases hx : x.1 = name <;> simp [hx]
      rw [hk]
      by_cases hm : m ∈ frame.names
      · obtain ⟨x, hx⟩ := isSome_iff_exists.1 (find?_isSome hm)
        have hxm : x.1 = m := by simpa using find?_some hx
        by_cases hn : m = name
        · subst hn
          simp [hm, hx, hxm]
        · simp [hx, hxm, hn]
      · have hn : m ≠ name := fun h => hm (h ▸ hme)
        simp [hm, hn]
    · next hme =>
      obtain ⟨r', hr, rfl⟩ := map_eq_ok_iff.1 h
      rw [lookup, lookup, ih hr]
      by_cases hm : m ∈ frame.names
      · have hn : m ≠ name := fun h => hme (h ▸ hm)
        simp [hn]
      · simp [hm]

theorem lookup_isSome_iff :
    (lookup name frames).isSome ↔ ∃ frames', assign name value frames = .ok frames' := by
  induction frames with
  | nil => simp [lookup, assign]
  | cons frame r ih =>
    rw [lookup, assign]
    split
    · next hm => simpa using find?_isSome hm
    · rw [ih]
      cases assign name value r <;> simp [Except.map]

theorem assign_eq_error {e : DomainError} (h : assign name value frames = .error e) :
    lookup name frames = none := by
  refine not_isSome_iff_eq_none.1 fun hs => ?_
  obtain ⟨_, ho⟩ := lookup_isSome_iff.1 hs
  rw [h] at ho
  cases ho

theorem isDeclared_assign (h : assign name value frames = .ok frames') :
    isDeclared frames' = isDeclared frames := by
  funext x
  rw [isDeclared, isDeclared, lookup_assign h]
  split
  · next hx => rw [hx, lookup_isSome_iff.2 ⟨_, h⟩, isSome_some]
  · rfl

variable (l : List (String × Value))

/-- What assignments leave, also when one of them fails. -/
theorem lookup_assignAll (f : List Frame) (m : String) : lookup m (assignAll l f).1 =
      (lastOf (l.takeWhile (isDeclared f)) m).or (lookup m f) := by
  induction l generalizing f with
  | nil => rfl
  | cons x r ih =>
    obtain ⟨name, value⟩ := x
    rw [assignAll, List.takeWhile_cons]
    cases h : assign name value f with
    | error e => simp [isDeclared, assign_eq_error h, lastOf]
    | ok =>
      have hx : isDeclared f (name, value) = true :=
        lookup_isSome_iff.2 ⟨_, h⟩
      rw [if_pos hx, lastOf, ih, isDeclared_assign h, lookup_assign h, Option.or_assoc]
      split <;> rfl

theorem assignAll_snd (f : List Frame) :
    (assignAll l f).2 = none ↔ l.all (isDeclared f) := by
  induction l generalizing f with
  | nil => simp [assignAll]
  | cons x r ih =>
    obtain ⟨name, value⟩ := x
    rw [assignAll, all_cons]
    cases h : assign name value f with
    | error e => simp [isDeclared, assign_eq_error h]
    | ok f' =>
      have hx : isDeclared f (name, value) = true :=
        lookup_isSome_iff.2 ⟨_, h⟩
      rw [hx, Bool.true_and]
      exact (ih f').trans (by rw [isDeclared_assign h])

/-! ## Rows as dictionaries -/

theorem dictSet_cases {α : Type} (d : List (String × α)) (key : String) (value : α) :
    dictSet d key value = d ++ [(key, value)] ∨ (dictSet d key value).length = d.length := by
  induction d with
  | nil => exact .inl rfl
  | cons x r ih =>
    rw [dictSet]
    split
    · exact .inr rfl
    · rcases ih with h | h <;> simp [h]

theorem foldl_dictSet {α : Type} (cells d : List (String × α)) :
    let d' := cells.foldl (fun d c => dictSet d c.1 c.2) d
    d'.length ≤ d.length + cells.length ∧
      (d'.length = d.length + cells.length → d' = d ++ cells) := by
  induction cells generalizing d with
  | nil => simp
  | cons c r ih =>
    obtain ⟨hle, heq⟩ := ih (dictSet d c.1 c.2)
    rcases dictSet_cases d c.1 c.2 with h | h
    · rw [h, length_append] at hle heq
      simp only [foldl_cons, length_cons, length_nil, h] at *
      exact ⟨by omega, fun hl => by simpa using heq (by omega)⟩
    · simp only [foldl_cons, length_cons] at *
      exact ⟨by omega, fun hl => by omega⟩

variable {t : ResultTable}

theorem ResultTable.toPylist_cells {d : List (String × Scalar)} (h : t.rows = [row])
    (hd : d ∈ t.toPylist) (hl : d.length = row.length) : d.map Prod.snd = row := by
  rw [toPylist, h, map_singleton, mem_singleton] at hd
  subst hd
  obtain ⟨hle, heq⟩ := foldl_dictSet (t.columns.zip row) []
  have hz : (t.columns.zip row).length = min t.columns.length row.length := length_zip
  simp only [length_nil] at hle heq
  rw [heq (by omega), nil_append, map_snd_zip (by omega)]

/-! ## Statements -/

inductive RightHandSide where
  | exprs (items : List String)
  | query (sql : String)

def RightHandSide.inner : RightHandSide → String
  | .exprs items => ", ".intercalate items
  | .query sql => sql

/-- The statements that assign a row. -/
inductive Assignment where
  | set (targets : List String) (rhs : RightHandSide)
  | executeImmediate (sqlExpr first : String) (more usingExprs : List String)

namespace Assignment

def targets : Assignment → List String
  | .set targets _ => targets
  | .executeImmediate _ first more _ => first :: more

variable {σ : Type} (env : ScriptEnv σ) (project : String)

/-- The statement. -/
def run : Assignment → ScriptM σ Unit
  | .set targets rhs => execSet env project targets ("(" ++ rhs.inner ++ ")")
  | .executeImmediate sqlExpr first more usingExprs =>
    execExecuteImmediate env project sqlExpr (first :: more) usingExprs

/-- The query that a statement reads. -/
def fetch : Assignment → ScriptM σ ResultTable
  | .set targets rhs => runQuery env project false
      (if targets.length = 1 then "SELECT " ++ ("(" ++ rhs.inner ++ ")")
        else Text.unwrapped ("(" ++ rhs.inner ++ ")"))
  | .executeImmediate sqlExpr _ _ usingExprs => do
    match ← evalExprScalar env project sqlExpr with
    | .string sql =>
      let usingValues ← evalExprs env project usingExprs
      perform env fun s => .runQueryWithParams project sql (allVisible s.frames) usingValues
    | _ => invalid "EXECUTE IMMEDIATE requires a STRING expression"

def accepted (t : ResultTable) : Assignment → Option (List Scalar)
  | .set targets _ =>
    if targets.length = 1 then some [t.firstCell]
    else match t.toPylist with
      | [] => none
      | row :: _ => if row.length ≠ targets.length then none else some (row.map Prod.snd)
  | .executeImmediate _ first more _ =>
    match t.toPylist with
    | [row] => if row.length ≠ (first :: more).length then none else some (row.map Prod.snd)
    | _ => none

variable (a : Assignment) (s : Interp σ)

/-- **The values of the right-hand side**, in the state before: each expression of a list by itself,
or the only row of the query. -/
def Values (row : List Scalar) : Assignment → Prop
  | .set _ (.exprs exprs) => List.Forall₂ (fun expr value =>
      ∃ s', Yields (evalExprScalar env project ("(" ++ expr ++ ")")) s value s') exprs row
  | a => ∃ t, (a.fetch env project s).result = .ok t ∧ t.rows = [row]

/-- **All targets receive their values, or the statement fails and none does.** -/
def Simultaneous : Prop :=
  let o := a.run env project s
  (∃ row, a.Values env project s row ∧ row.length = a.targets.length ∧
    (∀ v ∈ a.targets, (lookup v s.frames).isSome) ∧ o.result = .ok () ∧
    ∀ x ∈ a.targets.zip (row.map .scalar), lookup x.1 o.state.frames = some x.2) ∨
  ∃ e, o.result = .error e ∧ ∀ m, lookup m o.state.frames = lookup m s.frames

def ListIsNoQuery : Assignment → Prop
  | .set _ (.exprs exprs) => exprs.length ≠ 1 → ∀ visible w, ∃ failure,
      (env.perform (.runQuery false project (Text.unwrapped ("(" ++ ", ".intercalate exprs ++ ")"))
        visible) w).1 = .error failure
  | _ => True

def Exact (t : ResultTable) (values : List Scalar) : Assignment → Prop
  | .set targets (.exprs exprs) => exprs.length = targets.length
  | _ => t.rows = [values]

/-- **When a statement assigns all its targets or none**: an accepted result is one row of distinct
columns, with one value for a target named twice; or a target is not declared, and the assignments
before it change nothing. -/
def Settles : Prop :=
  ∀ t values, (a.fetch env project s).result = .ok t → a.accepted t = some values →
    let assignments := a.targets.zip (values.map Value.scalar)
    if assignments.all (isDeclared s.frames) then
      a.Exact t values ∧ ∀ x ∈ assignments, lastOf assignments x.1 = some x.2
    else ∀ m v, lastOf (assignments.takeWhile (isDeclared s.frames)) m = some v →
      lookup m s.frames = some v

/-! ## How a statement ends -/

theorem frames_logic : ExprLogic env (fun α (c : ScriptM σ α) => ∀ s, (c s).state.frames = s.frames)
    where
  pure _ _ := rfl
  bind {α β c f} hc hf s := by
    change (andThen c f s).state.frames = s.frames
    rw [andThen]
    split
    · exact (hf _ _).trans (hc s)
    · exact hc s
  domain _ _ := rfl
  query {α e f} _ hp ho hd he s := by
    change (f (env.perform (e s) s.world).1 _).state.frames = _
    rcases (env.perform (e s) s.world).1 with ⟨er | message | message⟩ | table
    · exact hd er _
    · exact he message _
    · rw [hp]
      rfl
    · exact ho table _

theorem fetch_frames : (a.fetch env project s).state.frames = s.frames := by
  cases a with
  | set => exact (frames_logic env).runQuery _ s
  | executeImmediate sql first m u =>
    have logic := frames_logic env
    refine logic.bind (logic.evalExprScalar sql) (fun value => ?_) s
    split
    · refine logic.bind (logic.evalExprs u) fun v s => ?_
      change (andThen (attempt env _) _ s).state.frames = _
      simp only [andThen, attempt]
      cases (env.perform _ s.world).1 <;> rfl
    · exact logic.domain _

/-- What `EXECUTE IMMEDIATE INTO` does with the rows. -/
def storeOnlyRow (targets : List String) (t : ResultTable) : ScriptM σ Unit :=
  match t.toPylist with
  | [] => invalid "EXECUTE IMMEDIATE INTO returned no rows"
  | [row] =>
    if row.length ≠ targets.length then
      invalid ("EXECUTE IMMEDIATE INTO target count " ++ toString targets.length ++
        " != result columns " ++ toString row.length)
    else assignValues targets (row.map Prod.snd)
  | _ => invalid "EXECUTE IMMEDIATE INTO returned multiple rows"

theorem run_eq_fetch : ∃ store : ResultTable → ScriptM σ Unit,
    a.run env project = (a.fetch env project >>= store) ∧
      ∀ t, (a.accepted t = none ∧ ∃ message, store t = invalid message) ∨
        ∃ values, a.accepted t = some values ∧ store t = assignValues a.targets values := by
  cases a with
  | set targets rhs =>
    by_cases h : targets.length = 1
    · refine ⟨fun t => assignValues targets [t.firstCell], ?_, fun t => .inr ⟨_, if_pos h, rfl⟩⟩
      simp only [run, execSet, fetch, if_pos h, evalExprScalar, Comp.bind_assoc, Comp.ret_bind]
    refine ⟨fun t => match t.toPylist with
      | [] => invalid "SET (targets) = (SELECT ...) returned no rows"
      | row :: _ =>
        if (row.map Prod.snd).length ≠ targets.length then
          invalid ("SET (targets) column count " ++ toString targets.length ++
            " != row columns " ++ toString (row.map Prod.snd).length)
        else assignValues targets (row.map Prod.snd), ?_, fun t => ?_⟩
    · simp only [run, execSet, fetch, if_neg h, evalExprRow, Comp.bind_assoc]
      congr 1
      funext t
      cases t.toPylist <;> rfl
    simp only [accepted, if_neg h, length_map]
    rcases t.toPylist with - | ⟨row, r⟩
    · exact .inl ⟨rfl, _, rfl⟩
    · by_cases hl : row.length = targets.length
      · exact .inr ⟨row.map Prod.snd, if_neg (not_not.2 hl), if_neg (not_not.2 hl)⟩
      · exact .inl ⟨if_pos hl, _, if_pos hl⟩
  | executeImmediate s first m u =>
    refine ⟨storeOnlyRow (first :: m), ?_, fun t => ?_⟩
    · simp only [run, execExecuteImmediate, fetch, Comp.bind_assoc]
      congr 1
      funext value
      cases value with
      | string sql =>
        rw [Comp.bind_assoc]
        rfl
      | _ => rfl
    · simp only [accepted, storeOnlyRow]
      rcases t.toPylist with - | ⟨row, - | ⟨o, r⟩⟩
      · exact .inl ⟨rfl, _, rfl⟩
      · by_cases hl : row.length = (first :: m).length
        · exact .inr ⟨row.map Prod.snd, if_neg (not_not.2 hl), if_neg (not_not.2 hl)⟩
        · exact .inl ⟨if_pos hl, _, if_pos hl⟩
      · exact .inl ⟨rfl, _, rfl⟩

def report (assignments : List (String × Value)) (frames : List Frame) : Except Exn Unit :=
  (assignAll assignments frames).2.elim (.ok ()) fun e => .error (.domain e)

/-- How a statement ends. -/
theorem run_cases :
    (∃ e, (a.run env project s).result = .error e ∧ (a.run env project s).state.frames = s.frames ∧
      ∀ t, (a.fetch env project s).result = .ok t → a.accepted t = none) ∨
    ∃ t values, (a.fetch env project s).result = .ok t ∧ a.accepted t = some values ∧
      (a.run env project s).result = report (a.targets.zip (values.map .scalar)) s.frames ∧
      (a.run env project s).state.frames =
        (assignAll (a.targets.zip (values.map .scalar)) s.frames).1 := by
  have hf := a.fetch_frames env project s
  obtain ⟨st, hr, hst⟩ := a.run_eq_fetch env project
  rw [hr]
  cases h : (a.fetch env project s).result with
  | error e =>
    rw [run_bind_of_error h]
    exact .inl ⟨e, rfl, hf, nofun⟩
  | ok t =>
    rw [run_bind_of_ok h]
    rcases hst t with ⟨hn, message, heq⟩ | ⟨values, hs, heq⟩
    · refine .inl ⟨.domain (.invalidQuery message), ?_, ?_, fun t' ht' => ?_⟩
      · rw [heq]
        rfl
      · rw [heq]
        exact hf
      · obtain rfl := ok.inj ht'
        exact hn
    · refine .inr ⟨t, values, rfl, hs, ?_, ?_⟩
      · rw [heq, ← hf]
        simp only [assignValues, updateFrames, report]
        cases (assignAll _ _).2 <;> rfl
      · rw [heq, ← hf]
        rfl

/-! ## All or nothing -/

variable {env project} {a : Assignment} {s : Interp σ}

theorem lastOf_isSome {l : List (String × Value)} {x : String × Value} (hx : x ∈ l) :
    (lastOf l x.1).isSome := by
  induction l with
  | nil => cases hx
  | cons y r ih =>
    obtain rfl | hx := mem_cons.1 hx
    · simp [lastOf]
    · simp [lastOf, ih hx]

variable {values : List Scalar}

theorem accepted_cases (h : a.accepted t = some values) :
    (a.targets.length = 1 ∧ values = [t.firstCell]) ∨
      ∃ dict ∈ t.toPylist, dict.length = a.targets.length ∧ values = dict.map Prod.snd := by
  cases a with
  | set =>
    rw [accepted] at h
    split at h
    · next ho => exact .inl ⟨ho, (some.inj h).symm⟩
    · split at h <;> [cases h; skip]
      next hl =>
      split at h <;> [cases h; skip]
      next hle => exact .inr ⟨_, hl ▸ mem_cons_self, not_not.1 hle, (some.inj h).symm⟩
  | executeImmediate =>
    rw [accepted] at h
    split at h <;> [skip; cases h]
    next hl =>
    split at h <;> [cases h; skip]
    next hle => exact .inr ⟨_, hl ▸ mem_cons_self, not_not.1 hle, (some.inj h).symm⟩

theorem accepted_length (h : a.accepted t = some values) : values.length = a.targets.length := by
  rcases accepted_cases h with ⟨ho, rfl⟩ | ⟨d, -, hl, rfl⟩
  · exact ho.symm
  · rw [length_map, hl]

theorem accepted_row (h : a.accepted t = some values) (ht : t.rows = [row])
    (hl : row.length = a.targets.length) : row = values := by
  rcases accepted_cases h with ⟨ho, rfl⟩ | ⟨d, hd, hdi, rfl⟩
  · obtain ⟨c, rfl⟩ := length_eq_one_iff.1 (hl.trans ho)
    rw [ResultTable.firstCell, ht]
  · exact (t.toPylist_cells ht hd (hdi.trans hl.symm)).symm

theorem values_iff (hl : a.ListIsNoQuery env project)
    (ht : (a.fetch env project s).result = .ok t) (h : a.accepted t = some values) :
    a.Values env project s row ∧ row.length = a.targets.length ↔
      row = values ∧ a.Exact t values := by
  have hq : (∃ t, (a.fetch env project s).result = .ok t ∧ t.rows = [row]) ∧
      row.length = a.targets.length ↔ row = values ∧ t.rows = [values] := by
    constructor
    · rintro ⟨⟨t', ht', hr⟩, hle⟩
      obtain rfl := ok.inj (ht.symm.trans ht')
      obtain rfl := accepted_row h hr hle
      exact ⟨rfl, hr⟩
    · rintro ⟨rfl, hr⟩
      exact ⟨⟨t, ht, hr⟩, accepted_length h⟩
  rcases a with ⟨targets, i | sql⟩ | _
  · -- a list is evaluated only if it is one expression for one target
    have ho : i.length = targets.length → i.length = 1 := fun hle => by
      by_contra hne
      obtain ⟨f, hf⟩ := hl hne (allVisible s.frames) s.world
      rw [fetch, if_neg (hle ▸ hne)] at ht
      simp only [runQuery, bind_eq, andThen, attempt, RightHandSide.inner] at ht
      rw [hf] at ht
      rcases f with _ | _ | _ <;> cases ht
    have hve : ∀ e, i = [e] → targets.length = 1 → values = [t.firstCell] ∧
        Yields (evalExprScalar env project ("(" ++ e ++ ")")) s t.firstCell
          (fetch env project (.set targets (.exprs i)) s).state := by
      rintro e rfl hn
      rw [accepted, if_pos hn] at h
      rw [fetch, if_pos hn] at ht ⊢
      refine ⟨(some.inj h).symm, ?_⟩
      change (runQuery env project false ("SELECT " ++ ("(" ++ e ++ ")")) s).result = .ok t at ht
      rw [Yields, evalExprScalar, run_bind_of_ok ht]
      exact ⟨rfl, rfl⟩
    constructor
    · rintro ⟨hva, hle⟩
      have hi : i.length = targets.length := hva.length_eq.trans hle
      obtain ⟨e, rfl⟩ := length_eq_one_iff.1 (ho hi)
      obtain ⟨rfl, hy⟩ := hve e rfl hi.symm
      obtain ⟨value, hv, rfl⟩ : ∃ value, (∃ s', Yields (evalExprScalar env project
          ("(" ++ e ++ ")")) s value s') ∧ row = [value] := by
        cases hva with | cons hv hni => cases hni; exact ⟨_, hv, rfl⟩
      obtain ⟨s', hv⟩ := hv
      exact ⟨by rw [(hv.unique hy).1], hi⟩
    · rintro ⟨rfl, hi⟩
      obtain ⟨e, rfl⟩ := length_eq_one_iff.1 (ho hi)
      obtain ⟨rfl, hy⟩ := hve e rfl hi.symm
      exact ⟨.cons ⟨_, hy⟩ .nil, hi⟩
  · exact hq
  · exact hq

/-- **Assignments that are all or nothing.** -/
theorem simultaneous_iff (a : Assignment) (s : Interp σ) (hlist : a.ListIsNoQuery env project) :
    a.Simultaneous env project s ↔ a.Settles env project s := by
  rcases a.run_cases env project s with
    ⟨e, hr, hf, hno⟩ | ⟨t, vals, ht, ha, hr, hf⟩
  · refine ⟨fun _ t vals ht ha => ?_, fun _ => .inr ⟨e, hr, fun m => by rw [hf]⟩⟩
    rw [hno t ht] at ha
    cases ha
  have hst : a.Settles env project s ↔ _ := ⟨fun h => h t vals ht ha, fun h t' v' ht' ha' => by
      obtain rfl := ok.inj (ht.symm.trans ht')
      obtain rfl := some.inj (ha.symm.trans ha')
      exact h⟩
  rw [hst, Simultaneous, hr, hf]
  have hlk := lookup_assignAll (a.targets.zip (vals.map .scalar)) s.frames
  have hna : (a.targets.zip (vals.map Value.scalar)).map Prod.fst = a.targets :=
    map_fst_zip (by rw [length_map, accepted_length ha])
  generalize hl : a.targets.zip (vals.map Value.scalar) = assignments at *
  have hs := assignAll_snd assignments s.frames
  by_cases hal : assignments.all (isDeclared s.frames)
  · -- every target is declared: the statement succeeds
    rw [report, hs.2 hal, if_pos hal]
    have hse : assignments.takeWhile (isDeclared s.frames) = assignments :=
      takeWhile_eq_self_iff.2 (all_eq_true.1 hal)
    have hd : ∀ v ∈ a.targets, (lookup v s.frames).isSome := by
      rw [← hna]
      exact forall_mem_map.2 (all_eq_true.1 hal)
    have hla : (∀ x ∈ assignments, lookup x.1 (assignAll assignments s.frames).1 = some x.2) ↔
        ∀ x ∈ assignments, lastOf assignments x.1 = some x.2 := by
      refine forall₂_congr fun x hx => ?_
      obtain ⟨v, hv⟩ := isSome_iff_exists.1 (lastOf_isSome hx)
      rw [hlk, hse, hv, some_or]
    constructor
    · rintro (⟨row, hva, hle, -, -, hx⟩ | ⟨e, he, -⟩)
      · obtain ⟨rfl, hea⟩ := (values_iff hlist ht ha).1 ⟨hva, hle⟩
        rw [hl] at hx
        exact ⟨hea, hla.1 hx⟩
      · cases he
    · rintro ⟨hea, hx⟩
      obtain ⟨hva, hle⟩ := (values_iff hlist ht ha).2 ⟨rfl, hea⟩
      exact .inl ⟨vals, hva, hle, hd, rfl, by rw [hl]; exact hla.2 hx⟩
  · -- a target is not declared: the statement fails after the assignments before it
    obtain ⟨e, he⟩ := ne_none_iff_exists'.1 (fun h => hal (hs.1 h))
    rw [report, he, if_neg hal]
    constructor
    · rintro (⟨row, -, -, -, ho, -⟩ | ⟨-, -, hsa⟩) m v hv
      · cases ho
      · rw [← hsa m, hlk, hv, some_or]
    refine fun hn => .inr ⟨_, rfl, fun m => ?_⟩
    rw [hlk]
    cases hv : lastOf (assignments.takeWhile (isDeclared s.frames)) m with
    | none => exact none_or
    | some v => rw [hn m v hv, some_or]

end Assignment

def pairEnv : ScriptEnv Unit :=
  { ScriptEnv.blank 10 (fun _ => .ok []) [] with
    perform _ _ := (.ok { columns := ["a", "b"], rows := [[.int 1, .int 2]] }, ()) }

def twoVariables : Interp Unit where
  frames := [{ kind := .root, vars := [("x", { typeName := "INT64", value := .scalar (.int 0) }),
    ("y", { typeName := "INT64", value := .scalar (.int 0) })] }]
  world := ()

theorem simultaneous_pair :
    (Assignment.set ["x", "y"] (.query "SELECT 1, 2")).Simultaneous pairEnv "p" twoVariables := by
  refine (Assignment.simultaneous_iff _ _ (by exact trivial)).2 fun t v ht ha => ?_
  obtain rfl := ok.inj ht
  obtain rfl := some.inj ha
  exact ⟨rfl, by decide⟩

/-- **A second target that is not declared**: the statement fails, and the first has changed. -/
theorem not_simultaneous_undeclared :
    let a := Assignment.set ["x", "z"] (.query "SELECT 1, 2")
    lookup "x" (a.run pairEnv "p" twoVariables).state.frames = some (.scalar (.int 1)) ∧
      ¬ a.Simultaneous pairEnv "p" twoVariables := by
  refine ⟨by decide, ?_⟩
  rintro (⟨-, -, -, -, ho, -⟩ | ⟨-, -, hs⟩)
  · exact absurd ho (by decide)
  · exact absurd (hs "x") (by decide)

end Bqemulator
