import Bqemulator.RowAccess.Noninterference

/-!
# Row access policies on wildcard tables

The row access pass looks for the policies of the name a wildcard reference is parsed to. It is
expanded only after that pass, so the union reads the tables as they are.
-/

namespace Bqemulator

open SyntaxTree Except List Storage

variable {Row : Type}

/-- What a caller may see: a row of a table with policies when one of the caller's policies is
true of it. -/
def visibleIn (cat : Catalog) (truth : String → Row → Truth) (caller : CallerIdentity)
    (key : String × String) (r : Row) : Bool :=
  cat.policies.all fun policy => policy.id.key ≠ key ||
    isAllowed truth caller (cat.listRowAccessPolicies policy.id) r

theorem visibleIn_reserved {cat : Catalog} {t : String → Row → Truth} {c : CallerIdentity}
    {key : String × String} (hk : isReserved key.1 = true) (r : Row) :
    visibleIn cat t c key r = true := by
  refine all_eq_true.2 fun p _ => ?_
  have hn : p.id.key ≠ key := by
    rintro rfl
    have ho := isReserved_schemaName p.id.project p.id.dataset
    rw [TableId.key] at hk
    rw [hk] at ho
    cases ho
  simp [hn]

def Wildcard.owner (w : Wildcard) (project : String) : String :=
  if w.project = "" then project else w.project

def Wildcard.memberKey (w : Wildcard) (project id : String) : String × String :=
  (schemaName (w.owner project) w.dataset, id)

/-- **A wildcard reference all of whose tables are visible**: its union reads no hidden row. -/
def Wildcard.AdmitsVisible (ctx : AppContext) (truth : String → Row → Truth)
    (caller : CallerIdentity) (project : String) (text : Sql) (w : Wildcard) : Prop :=
  isReserved w.dataset = false → ∀ id ∈ admittedIds ctx project text w, ∀ r,
    visibleIn ctx.catalog truth caller (w.memberKey project id) r = true

section Reference

variable {ctx : AppContext} {caller : CallerIdentity} {project : String}
  {truth : String → Row → Truth} {c : Chain} {p : Pos} {w : Wildcard} {v : Sql} {id : String}

theorem ne_empty_of_mem_admittedIds {text : Sql}
    (h : id ∈ admittedIds ctx project text w) : id ≠ "" := by
  have hm := mem_applyTableSuffixPushdown h
  simp only [matchingIds, mem_insertionSort, mem_filter, Bool.and_eq_true, decide_eq_true_eq] at hm
  rintro rfl
  have hs : w.stem.toList <+: "".toList := isPrefixOf_iff_prefix.1 hm.2.1
  have hn : w.stem.toList = [] := prefix_nil.1 hs
  exact hm.2.2 (String.toList_inj.1 hn.symm)

theorem rewriteTableNode_member {t : Table} {text : Sql} (hd : w.dataset ≠ "")
    (hi : id ∈ admittedIds ctx project text w)
    (h : rewriteTableNode project (w.member id) = .ok t) :
    t = if isReserved w.dataset then w.member id
      else { w.member id with catalog := "", db := (w.memberKey project id).1 } := by
  cases hr : isReserved w.dataset with
  | true =>
    rw [rewriteTableNode_reserved (t := w.member id) hr] at h
    simpa using (ok.inj h).symm
  | false =>
    rw [rewriteTableNode_qualified (t := w.member id) w.dot_notMem_dataset hd
      (ne_empty_of_mem_admittedIds hi) hr] at h
    split at h
    · exact (ok.inj h).symm
    · cases h

protected theorem NonInterferingAt.wildcard (hp : c.parsed = true)
    (hw : c.Expands ctx caller project p w) (hv : w.AdmitsVisible ctx truth caller project c.text)
    (hta : ∀ id ∈ admittedIds ctx project c.text w, ∀ view : TableId,
      view.key = w.memberKey project id → ctx.catalog.viewBody view = none)
    (h : c.leafSql ctx caller project p (.wildcard w) = .ok v) :
    NonInterferingAt (Storage.ViewsFollow ctx.catalog) truth
      (visibleIn ctx.catalog truth caller) p v := by
  rw [leafSql_wildcard_iff hp hw] at h
  refine nonInterfering_of_tryBindAt h fun y hy u hu => ?_
  obtain ⟨id, hi, rfl⟩ := (mem_leavesAt_expandWildcard_iff hw.dataset hw.ids).1 hy
  obtain ⟨l, hl, rfl⟩ := map_eq_ok_iff.1 hu
  obtain ⟨t, ht, rfl⟩ := map_eq_ok_iff.1 hl
  obtain rfl := rewriteTableNode_member hw.dataset hi ht
  cases hr : isReserved w.dataset with
  | true =>
    exact .table (visibleIn_reserved hr)
      fun st hf => hf.view?_eq_none_of_isReserved hr
  | false =>
    exact .table (hv hr id hi)
      fun st hf => hf.view?_eq_none (hta id hi)

theorem leak_of_member {s u : Sql} (hs : s.parses = true)
    (hu : finalSql ctx caller project s = .ok u) (hx : (p, .wildcard w) ∈ s.leaves)
    (hw : (Chain.of ctx caller project s).Expands ctx caller project p w)
    (hrs : isReserved w.dataset = false)
    (hi : id ∈ admittedIds ctx project (Chain.of ctx caller project s).text w) {r : Row}
    (hr : visibleIn ctx.catalog truth caller (w.memberKey project id) r = false) :
    ¬ NonInterferingAt (Storage.ViewsFollow ctx.catalog) truth
      (visibleIn ctx.catalog truth caller) [] u := by
  obtain ⟨v, hv⟩ := exists_ok_of_tryBindAt (finalSql_eq_ok_iff.1 hu).2 (p, .wildcard w) hx
  have hv' := (leafSql_wildcard_iff hs hw).1 hv
  have hy := (mem_leavesAt_expandWildcard_iff (p := p) hw.dataset hw.ids).2 ⟨id, hi, rfl⟩
  obtain ⟨u', hu'⟩ := exists_ok_of_tryBindAt hv' _ hy
  obtain ⟨l, hl, rfl⟩ := map_eq_ok_iff.1 hu'
  obtain ⟨t, ht, rfl⟩ := map_eq_ok_iff.1 hl
  obtain rfl := rewriteTableNode_member hw.dataset hi ht
  rw [hrs, if_neg Bool.false_ne_true] at hu'
  refine not_nonInterfering_of_leak (fun _ rows => rows) (fun _ => rfl)
    (viewsFollow_filled [] _ _ _)
    (fun key hk => by rw [mem_singleton.1 hk, hr])
    (mem_leaves_finalSql hu hx hv ((mem_leavesAt_tryBindAt hv').2
      ⟨_, hy, _, hu', mem_singleton.2 rfl⟩)) 0 ?_
  have hg : (filled [] [w.memberKey project id] [r]).rows?
      { w.member id with catalog := "", db := (w.memberKey project id).1 } = some [r] := by
    rw [rows?, resolve, if_pos (.inl rfl), Option.bind_some, get_filled]
    exact if_pos (mem_singleton.2 rfl)
  have hre : isWritten (w.memberPos p id) = false := rfl
  rw [Engine.leafValue_table (view?_filled _ _ _ _), hg, hre]
  simp [Wildcard.memberKey, Wildcard.member, schemaName_ne_empty]

end Reference

/-- **Wildcard references under row access policies**: the SQL of a query over them does not depend
on hidden rows iff no table that a union reads has any. -/
theorem wildcardReads_nonInterfering_iff (ctx : AppContext) (caller : CallerIdentity)
    (project : String) (truth : String → Row → Truth) {s u : Sql} (hs : s.parses = true)
    (htables : ∀ x ∈ s.leaves, ∀ w, x.2 = .wildcard w →
      ∀ id ∈ matchingIds ctx project w, ∀ view : TableId, view.key = w.memberKey project id →
        ctx.catalog.viewBody view = none) (hother : ∀ x ∈ s.leaves,
      (¬ ∃ w, x.2 = .wildcard w ∧
        (Chain.of ctx caller project s).Expands ctx caller project x.1 w) → ∀ v,
      (Chain.of ctx caller project s).leafSql ctx caller project x.1 x.2 = .ok v →
        NonInterferingAt (Storage.ViewsFollow ctx.catalog) truth
          (visibleIn ctx.catalog truth caller) x.1 v)
    (hu : finalSql ctx caller project s = .ok u) :
    (NonInterferingAt (Storage.ViewsFollow ctx.catalog) truth
      (visibleIn ctx.catalog truth caller) [] u ∧
      ∀ E : Engine Row, E.truth = truth → ∀ st : Storage Row, st.ViewsFollow ctx.catalog →
        ∀ fuel, E.eval st fuel u =
          E.eval (st.restrict (visibleIn ctx.catalog truth caller)) fuel u) ↔
      ∀ x ∈ s.leaves, ∀ w, x.2 = .wildcard w →
        (Chain.of ctx caller project s).Expands ctx caller project x.1 w →
          w.AdmitsVisible ctx truth caller project (Chain.of ctx caller project s).text := by
  constructor
  · rintro ⟨hn, -⟩ x hx w hw he hre id hi r
    obtain ⟨p, l⟩ := x
    obtain rfl : l = .wildcard w := hw
    by_contra hr
    exact leak_of_member hs hu hx he hre hi (by simpa using hr) hn
  · intro hvi
    have hn : NonInterferingAt (Storage.ViewsFollow ctx.catalog) truth
        (visibleIn ctx.catalog truth caller) [] u := by
      refine nonInterfering_of_tryBindAt (finalSql_eq_ok_iff.1 hu).2 fun x hx v hv => ?_
      by_cases he : ∃ w, x.2 = .wildcard w ∧
          (Chain.of ctx caller project s).Expands ctx caller project x.1 w
      · obtain ⟨w, hw, he⟩ := he
        rw [hw] at hv
        exact .wildcard hs he (hvi x hx w hw he)
          (fun id hi => htables x hx w hw id (mem_applyTableSuffixPushdown hi)) hv
      · exact hother x hx he v hv
    exact ⟨hn, fun E hE st hf => hn E hE st _ hf st.agreeOn_restrict⟩

/-- The tables `p.d.events_1`, with the policy `x = 1` for the user `b`, and `p.d.events_2`. Texts
have the predicate `_TABLE_SUFFIX = suffix`, if one is given. -/
def eventsContext (suffix : Option String) : AppContext where
  catalog := {
    tables := [{ id := ⟨"p", "d", "events_1"⟩ }, { id := ⟨"p", "d", "events_2"⟩ }]
    policies := [{
      id := ⟨"p", "d", "events_1"⟩, policyId := "ones", filterPredicate := "x = 1",
      grantees := ["user:b@x.com"] }] }
  now := 0
  retentionDays := 1
  listStorageTables _ _ := ["events_1", "events_2"]
  suffixSearch pattern _ := if pattern = .equals then suffix.map fun v => [v] else none
  rebasesOffset _ := false
  parsesFilter _ := true
  translationError _ := none

def readEvents : Sql := Sql.selectStar (.wildcard { dataset := "d", stem := "events_" })

theorem viewBody_eventsContext {s : Option String} (id : TableId) :
    (eventsContext s).catalog.viewBody id = none := by
  by_contra hs
  obtain ⟨body, hb⟩ := Option.ne_none_iff_exists'.1 hs
  obtain ⟨m, hm, -, hv⟩ := Catalog.exists_mem_of_viewBody hb
  simp only [eventsContext, mem_cons, not_mem_nil, or_false] at hm
  rcases hm with rfl | rfl <;> cases hv

/-- A predicate that admits the table without policies only: no hidden row is read. -/
theorem wildcardReads_admitted :
    ∃ u, finalSql (eventsContext (some "2")) { principal := "user:a@x.com" } "p" readEvents =
        .ok u ∧
      NonInterferingAt (Storage.ViewsFollow (eventsContext (some "2")).catalog) isOne
        (visibleIn (eventsContext (some "2")).catalog isOne
          { principal := "user:a@x.com" }) [] u := by
  obtain ⟨u, hu⟩ : ∃ u, finalSql (eventsContext (some "2")) { principal := "user:a@x.com" } "p"
    readEvents = .ok u := ⟨_, rfl⟩
  have hl : ∀ x ∈ Sql.leaves readEvents, x = ([(.from_, .this), (.select, .from_)],
      .wildcard { dataset := "d", stem := "events_" }) :=
    fun x hx => mem_singleton.1 (Sql.leaves_selectStar _ ▸ hx)
  refine ⟨u, hu, ((wildcardReads_nonInterfering_iff _ _ _ isOne rfl ?_ ?_ hu).2 ?_).1⟩
  · intro x hx w hw id _ v hk
    exact viewBody_eventsContext v
  · intro x hx he
    rw [hl x hx] at he
    exact absurd ⟨_, rfl, rfl, .inl rfl, by decide, by decide⟩ he
  intro x hx w hw _ _ id hi r
  rw [hl x hx] at hw
  obtain rfl := Leaf.wildcard.inj hw
  obtain rfl : id = "events_2" := mem_singleton.1 hi
  rfl

/-- **A wildcard reference reads tables without their policies**: a caller to whom no policy applies
reads the row. -/
theorem wildcardReads_leak :
    ∃ u, finalSql (eventsContext none) { principal := "user:a@x.com" } "p" readEvents = .ok u ∧
      (Engine.scan isOne).eval
        { tables := [(("p__d", "events_1"), [1]), (("p__d", "events_2"), [3])] } 0 u = [1, 3] ∧
      (Engine.scan isOne).eval
        (Storage.restrict (visibleIn (eventsContext none).catalog isOne
          { principal := "user:a@x.com" })
          { tables := [(("p__d", "events_1"), [1]), (("p__d", "events_2"), [3])] }) 0 u = [3] :=
  ⟨_, rfl, by decide, by decide⟩

end Bqemulator
