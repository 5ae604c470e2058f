import Bqemulator.Lib.Index
import Bqemulator.Udf.Registry

/-!
# Registered functions and the catalog

The functions of the database are to be those of the catalog's routines. They are as long as every
definition that reaches the registry is accepted, a routine keeps its runtime and no two routines
get one name: the catalog is written first, and the registration of another runtime is not taken
back.
-/

namespace Bqemulator

open Except Keyed List MemoryRepository Option UdfWorld

open Keyed (Holds Others)

variable {env : UdfEnv} {answers : MacroAnswers}

/-! ## What a routine stands for -/

def definition (env : UdfEnv) (r : RoutineMeta) : Option DuckdbFunction :=
  r.dispatch.bind fun kind => (compile env r kind).toOption

def jsContext (env : UdfEnv) (r : RoutineMeta) : Option JsContext :=
  if r.dispatch = some .javascript then (definition env r).map fun f => ⟨r.key, f.name⟩ else none

variable {r : RoutineMeta} {f : DuckdbFunction}

theorem definition_eq_some_iff :
    definition env r = some f ↔ ∃ kind, r.dispatch = some kind ∧ compile env r kind = .ok f := by
  rw [definition, Option.bind_eq_some_iff]
  refine exists_congr fun kind => and_congr_right fun _ => ?_
  cases compile env r kind <;> simp [Except.toOption]

theorem definition_of_dispatch_none (h : r.dispatch = none) : definition env r = none := by
  rw [definition, h]
  rfl

theorem compile_eq_ok {kind : FunctionKind} (h : compile env r kind = .ok f) :
    f.kind = kind ∧ qualifiedRoutineName r = .ok f.name := by
  cases kind with
  | scalarMacro | tableMacro =>
    obtain ⟨name, hn, h⟩ := bind_eq_ok_iff.1 h
    obtain ⟨a, -, h⟩ := bind_eq_ok_iff.1 h
    obtain ⟨body, -, rfl⟩ := map_eq_ok_iff.1 h
    exact ⟨rfl, hn⟩
  | javascript =>
    obtain ⟨-, -, h⟩ := bind_eq_ok_iff.1 h
    obtain ⟨-, -, h⟩ := bind_eq_ok_iff.1 h
    obtain ⟨name, hn, rfl⟩ := map_eq_ok_iff.1 h
    exact ⟨rfl, hn⟩

theorem dispatch_of_definition (h : definition env r = some f) : r.dispatch = some f.kind := by
  obtain ⟨kind, hk, hf⟩ := definition_eq_some_iff.1 h
  rw [(compile_eq_ok hf).1]
  exact hk

theorem name_of_definition (h : definition env r = some f) :
    qualifiedRoutineName r = .ok f.name := by
  obtain ⟨kind, -, hf⟩ := definition_eq_some_iff.1 h
  exact (compile_eq_ok hf).2

variable {r' : RoutineMeta} {key : String × String × String} {datasets : List (String × String)}
  {op : RoutineOp}

theorem name_eq_of_key {f' : DuckdbFunction} (hk : r.key = r'.key) (h : definition env r = some f)
    (h' : definition env r' = some f') : f.name = f'.name := by
  obtain ⟨hp, hd, hr⟩ : r.projectId = r'.projectId ∧
      r.datasetId = r'.datasetId ∧ r.routineId = r'.routineId := by
    simpa [RoutineMeta.key] using hk
  have hn : qualifiedRoutineName r = qualifiedRoutineName r' := by
    rw [qualifiedRoutineName, qualifiedRoutineName, hp, hd, hr]
  rw [name_of_definition h, name_of_definition h'] at hn
  exact ok.inj hn

theorem jsContext_eq_some_iff {c : JsContext} :
    jsContext env r = some c ↔
      r.dispatch = some .javascript ∧ ∃ f, definition env r = some f ∧ c = ⟨r.key, f.name⟩ := by
  rw [jsContext]
  by_cases h : r.dispatch = some .javascript
  · rw [if_pos h, map_eq_some_iff]
    simp [h, eq_comm]
  · simp [h]

theorem jsContext_of_dispatch_ne (h : r.dispatch ≠ some .javascript) : jsContext env r = none :=
  if_neg h

/-! ## Functions and contexts of live routines -/

structure Reflects (env : UdfEnv) (live : RoutineMeta → Prop) (w : UdfWorld) : Prop where
  functions : Holds (definition env) live w.functions
  contexts : Holds (jsContext env) live w.contexts

/-- The names of functions tell routines apart, their case aside. -/
def NamedApart (env : UdfEnv) (live : RoutineMeta → Prop) : Prop :=
  ∀ ⦃r r' f f'⦄, live r → live r' → definition env r = some f → definition env r' = some f' →
    Text.lower f.name = Text.lower f'.name → r.key = r'.key

/-- The database and its compilers accept a routine as a new definition. -/
def Registrable (env : UdfEnv) (answers : MacroAnswers) (w : UdfWorld) (r : RoutineMeta) : Prop :=
  ∀ kind, r.dispatch = some kind → ∃ f, compile env r kind = .ok f ∧
    if kind = .javascript then env.createFunction r = .ok () else answers w.functions f = .ok ()

section

variable {live live' : RoutineMeta → Prop} {w : UdfWorld}

section

variable (h : Reflects env live w)

include h

theorem Reflects.congr (hl : ∀ r, live r ↔ live' r) : Reflects env live' w :=
  ⟨h.functions.congr hl, h.contexts.congr hl⟩

theorem reflects_removeContext
    (ho : ∀ x, live x → x.key = key → x.dispatch = none ∨ x.dispatch = some .javascript)
    (ha : NamedApart env live) :
    Reflects env (Others RoutineMeta.key live key) (w.removeContext key) := by
  have hco : ∀ x, live x → ∀ c, jsContext env x = some c → c.key = x.key := by
    intro x _ c hc
    obtain ⟨-, f, -, rfl⟩ := jsContext_eq_some_iff.1 hc
    rfl
  unfold removeContext
  cases hge : w.contexts.get? key with
  | none =>
    -- a live routine of this key would have its context
    have hn : ∀ x, live x → x.key = key → definition env x = none := by
      intro x hx hk
      rcases ho x hx hk with hd | hd
      · exact definition_of_dispatch_none hd
      cases hf : definition env x with
      | none => rfl
      | some f =>
        have hm := (h.contexts ⟨x.key, f.name⟩).2
          ⟨x, hx, jsContext_eq_some_iff.2 ⟨hd, f, hf, rfl⟩⟩
        exact absurd hk (get?_eq_none_iff.1 hge _ hm)
    refine ⟨h.functions.erase_silent hn, h.contexts.erase_silent fun x hx hk => ?_⟩
    rw [jsContext, hn x hx hk]
    split <;> rfl
  | some p =>
    obtain ⟨hm, hk⟩ := get?_eq_some_iff.1 hge
    obtain ⟨y, hy, hc⟩ := (h.contexts p).1 hm
    obtain ⟨hj, g, hg, rfl⟩ := jsContext_eq_some_iff.1 hc
    refine ⟨h.functions.erase (fun x hx hk' f hf => ?_) (fun x hx f hf heq => ?_),
      h.contexts.erase (fun x hx hk' c hc' => (hco x hx c hc').trans hk') fun x hx c hc' heq => ?_⟩
    · -- the routine's own function has the context's name
      have hd := dispatch_of_definition hf
      have hki : f.kind = .javascript := by
        rcases ho x hx hk' with hd' | hd'
        · rw [hd] at hd'
          cases hd'
        · exact some.inj (hd.symm.trans hd')
      rw [DuckdbFunction.key, hki, name_eq_of_key (hk'.trans hk.symm) hf hg]
    · have hna : Text.lower f.name = Text.lower g.name := congrArg Prod.snd heq
      exact hx.2 ((ha hx.1 hy hf hg hna).trans hk)
    · exact hx.2 ((hco x hx.1 c hc').symm.trans heq)

section Materialize

variable (hap : NamedApart env live)
  (ho : ∀ x, live x → x.key = r.key → x.dispatch = none ∨ x.dispatch = r.dispatch)
  (hot : ∀ x, Others RoutineMeta.key live r.key x → ∀ f f', definition env x = some f →
    definition env r = some f' → Text.lower f.name ≠ Text.lower f'.name)
  {f : DuckdbFunction} (hde : definition env r = some f)

include ho hot hde

theorem reflects_createMacro (hj : f.kind ≠ .javascript) (ha : answers w.functions f = .ok ()) :
    ∃ w', w.createMacro answers f = (w', .ok ()) ∧ w'.catalog = w.catalog ∧
      Reflects env (fun x => x = r ∨ Others RoutineMeta.key live r.key x) w' := by
  have hdi := dispatch_of_definition hde
  refine ⟨{ w with functions := w.functions.put f }, by rw [UdfWorld.createMacro, ha], rfl, ?_, ?_⟩
  · refine h.functions.put hde ?_ ?_
    · intro x hx hk e he
      have hd := dispatch_of_definition he
      rcases ho x hx hk with hd' | hd'
      · rw [hd] at hd'
        cases hd'
      · rw [hd, hdi, Option.some.injEq] at hd'
        rw [DuckdbFunction.key, DuckdbFunction.key, hd', name_eq_of_key hk he hde]
    · intro x hx e he heq
      exact hot x hx e f he hde (congrArg Prod.snd heq)
  · refine h.contexts.put_silent (jsContext_of_dispatch_ne (by simp [hdi, hj])) ?_
    intro x hx hk
    apply jsContext_of_dispatch_ne
    rcases ho x hx hk with hd | hd <;> simp [hd, hdi, hj]

include hap

theorem reflects_createJavascript (hdi : r.dispatch = some .javascript)
    (ha : env.createFunction r = .ok ()) :
    ∃ w', w.createJavascript env r f = (w', .ok ()) ∧ w'.catalog = w.catalog ∧
      Reflects env (fun x => x = r ∨ Others RoutineMeta.key live r.key x) w' := by
  have hcl := reflects_removeContext h (fun x hx hk => hdi ▸ ho x hx hk) hap
  -- once the context is given up, no function of the name is left
  have hfr : (w.removeContext r.key).functions.get? f.key = none := by
    rw [Keyed.get?_eq_none_iff]
    intro e he heq
    obtain ⟨x, hx, hex⟩ := (hcl.functions e).1 he
    exact hot x hx e f hex hde (congrArg Prod.snd heq)
  refine ⟨{ w.removeContext r.key with
    contexts := (w.removeContext r.key).contexts.put ⟨r.key, f.name⟩
    functions := (w.removeContext r.key).functions.put f }, ?_,
      UdfWorld.catalog_removeContext _ _, ?_⟩
  · simp only [UdfWorld.createJavascript, ha, hfr, Option.isSome_none, Bool.false_eq_true, if_false]
  have hag : ∀ x, (x = r ∨ Others RoutineMeta.key (Others RoutineMeta.key live r.key) r.key x) ↔
        (x = r ∨ Others RoutineMeta.key live r.key x) := by
    intro x
    refine or_congr_right ⟨fun hx => hx.1, fun hx => ⟨hx, hx.2⟩⟩
  refine Reflects.congr ⟨hcl.functions.put hde (fun x hx hk => absurd hk hx.2) ?_,
    hcl.contexts.put (jsContext_eq_some_iff.2 ⟨hdi, f, hde, rfl⟩)
      (fun x hx hk => absurd hk hx.2) ?_⟩ hag
  · intro x hx e he heq
    exact hot x hx.1 e f he hde (congrArg Prod.snd heq)
  · intro x hx c hc heq
    obtain ⟨-, e, -, rfl⟩ := jsContext_eq_some_iff.1 hc
    exact hx.2 heq

omit hde

/-- A routine registered in the place of the one under its key, of one runtime and with a name of
its own. -/
theorem reflects_materialize (hr : Registrable env answers w r) :
    ∃ w', w.materialize env answers r = (w', .ok ()) ∧ w'.catalog = w.catalog ∧
      Reflects env (fun x => x = r ∨ Others RoutineMeta.key live r.key x) w' := by
  cases hdi : r.dispatch with
  | none =>
    -- a procedure has no function, and neither had the routine before it
    have hn : ∀ x, live x → x.key = r.key → x.dispatch = none := by
      intro x hx hk
      simpa [hdi] using ho x hx hk
    refine ⟨w, by rw [UdfWorld.materialize, hdi], rfl, ?_, ?_⟩
    · exact h.functions.put_silent (definition_of_dispatch_none hdi)
        fun x hx hk => definition_of_dispatch_none (hn x hx hk)
    · refine h.contexts.put_silent (jsContext_of_dispatch_ne (by simp [hdi])) ?_
      intro x hx hk
      exact jsContext_of_dispatch_ne (by simp [hn x hx hk])
  | some kind =>
    obtain ⟨f, hf, ha⟩ := hr kind hdi
    have hde : definition env r = some f := definition_eq_some_iff.2 ⟨kind, hdi, hf⟩
    obtain rfl : f.kind = kind := (compile_eq_ok hf).1
    simp only [UdfWorld.materialize, hdi, hf]
    by_cases hj : f.kind = .javascript
    · rw [if_pos hj] at ha ⊢
      exact reflects_createJavascript h hap ho hot hde (hdi.trans (congrArg some hj)) ha
    · rw [if_neg hj] at ha ⊢
      exact reflects_createMacro h ho hot hde hj ha

end Materialize

/-- A routine removed from its runtime. -/
theorem reflects_deregister (ha : NamedApart env live)
    (hl : live r) (ho : ∀ x, live x → x.key = r.key → x = r)
    (hde : r.dispatch ≠ none → (definition env r).isSome) :
    ∃ w', w.deregister r = (w', .ok ()) ∧ w'.catalog = w.catalog ∧
      Reflects env (Others RoutineMeta.key live r.key) w' := by
  cases hd : r.dispatch with
  | none =>
    refine ⟨w, by rw [deregister, hd], rfl, h.functions.erase_silent ?_,
      h.contexts.erase_silent ?_⟩
    · intro x hx hk
      rw [ho x hx hk]
      exact definition_of_dispatch_none hd
    · intro x hx hk
      rw [ho x hx hk]
      exact jsContext_of_dispatch_ne (by simp [hd])
  | some kind =>
    by_cases hj : kind = .javascript
    · subst hj
      refine ⟨w.removeContext r.key, by rw [deregister, hd],
        catalog_removeContext _ _, reflects_removeContext h (fun x hx hk => ?_) ha⟩
      rw [ho x hx hk]
      exact .inr hd
    · obtain ⟨f, hf⟩ := isSome_iff_exists.1 (hde (by simp [hd]))
      have hki : f.kind = kind :=
        some.inj ((dispatch_of_definition hf).symm.trans hd)
      refine ⟨{ w with functions := w.functions.erase (kind, Text.lower f.name) }, ?_, rfl, ?_, ?_⟩
      · rw [deregister, hd]
        cases kind with
        | javascript => exact absurd rfl hj
        | scalarMacro | tableMacro => simp only [name_of_definition hf]
      · refine h.functions.erase ?_ ?_
        · intro x hx hk e he
          rw [ho x hx hk, hf, some.injEq] at he
          rw [← he, DuckdbFunction.key, hki]
        · intro x hx e he heq
          exact hx.2 (ha hx.1 hl he hf (congrArg Prod.snd heq))
      · refine h.contexts.erase_silent fun x hx hk => ?_
        rw [ho x hx hk]
        exact jsContext_of_dispatch_ne (by simp [hd, hj])

end

end

/-! ## The catalog's routines -/

namespace UdfWorld

def Listed (w : UdfWorld) (r : RoutineMeta) : Prop :=
  r ∈ w.catalog.routines.rows

variable {w : UdfWorld}

theorem Listed.eq_of_key (h : w.Listed r) (h' : w.Listed r') (hk : r.key = r'.key) : r = r' := by
  have hr := mem_iff_get?.1 h
  rw [hk, mem_iff_get?.1 h'] at hr
  exact (some.inj hr).symm

/-- **The functions of the database are those of the catalog's routines**, each with its current
definition, and no routine but a procedure is without one. -/
structure Exact (env : UdfEnv) (w : UdfWorld) : Prop where
  registered : Holds (definition env) w.Listed w.functions
  complete : ∀ r, w.Listed r → r.dispatch ≠ none → (definition env r).isSome

/-- A routine can be called: a procedure from the catalog, a function from the database. -/
def Callable (env : UdfEnv) (w : UdfWorld) (r : RoutineMeta) : Prop :=
  w.Listed r ∧ (r.dispatch ≠ none → ∃ f ∈ w.functions.rows, definition env r = some f)

/-- **The worlds that safe operations lead through**: the functions and contexts are those of the
catalog's routines, which were accepted, have names of their own and lie in datasets. -/
structure Consistent (env : UdfEnv) (w : UdfWorld) : Prop where
  reflects : Reflects env w.Listed w
  complete : ∀ r, w.Listed r → r.dispatch ≠ none → (definition env r).isSome
  created : ∀ r, w.Listed r → r.dispatch = some .javascript → env.createFunction r = .ok ()
  apart : NamedApart env w.Listed
  placed : ∀ r, w.Listed r → (w.catalog.datasets.get? (r.projectId, r.datasetId)).isSome

theorem Consistent.exact (h : w.Consistent env) : w.Exact env :=
  ⟨h.reflects.functions, h.complete⟩

/-! ## Restarts -/

/-- What a restart has registered so far: the macros, never lost, and the JavaScript functions it
has come to. -/
def Restored (w : UdfWorld) (done : List RoutineMeta) (r : RoutineMeta) : Prop :=
  w.Listed r ∧ (r.dispatch = some .javascript → r ∈ done)

theorem reflects_restored_nil (h : w.Consistent env) :
    Reflects env (w.Restored [])
      { w with functions := w.functions.removeIf fun f => f.kind = .javascript, contexts := .empty }
    where
  functions f := by
    show f ∈ w.functions.rows.filter (fun f => !decide (f.kind = .javascript)) ↔ _
    rw [mem_filter, h.reflects.functions f]
    constructor
    · rintro ⟨⟨r, hr, hf⟩, hk⟩
      refine ⟨r, ⟨hr, fun hj => ?_⟩, hf⟩
      rw [dispatch_of_definition hf, some.injEq] at hj
      simp [hj] at hk
    rintro ⟨r, ⟨hr, hd⟩, hf⟩
    refine ⟨⟨r, hr, hf⟩, ?_⟩
    have hn : f.kind ≠ .javascript := by
      intro hj
      have hm := hd (by rw [dispatch_of_definition hf, hj])
      cases hm
    simp [hn]
  contexts c := by
    refine iff_of_false not_mem_nil ?_
    rintro ⟨r, ⟨-, hd⟩, hc⟩
    have hm := hd (jsContext_eq_some_iff.1 hc).1
    cases hm

variable {done : List RoutineMeta}

theorem restored_cons_iff (hr : w.Listed r) (x : RoutineMeta) :
    (x = r ∨ Others RoutineMeta.key (w.Restored done) r.key x) ↔ w.Restored (r :: done) x := by
  constructor
  · rintro (rfl | ⟨⟨hx, hd⟩, -⟩)
    · exact ⟨hr, fun _ => mem_cons_self⟩
    · exact ⟨hx, fun hj => mem_cons_of_mem _ (hd hj)⟩
  rintro ⟨hx, hd⟩
  by_cases hk : x.key = r.key
  · exact .inl (hx.eq_of_key hr hk)
  · refine .inr ⟨⟨hx, fun hj => ?_⟩, hk⟩
    rcases mem_cons.1 (hd hj) with rfl | hm
    · exact absurd rfl hk
    · exact hm

theorem reflects_rematerialize (a : MacroAnswers) {v : UdfWorld} (h : w.Consistent env)
    (hv : Reflects env (w.Restored done) v) (hr : w.Listed r) :
    Reflects env (w.Restored (r :: done)) (v.materialize env a r).1 ∧
      (v.materialize env a r).1.catalog = v.catalog := by
  by_cases hre : Registrable env a v r
  · have ha : NamedApart env (w.Restored done) :=
      fun _ _ _ _ hx hx' => h.apart hx.1 hx'.1
    obtain ⟨v', hru, hca, hv'⟩ := reflects_materialize hv ha
      (fun x hx hk => .inr (by rw [hx.1.eq_of_key hr hk]))
      (fun x hx f f' hf hf' hn => hx.2 (h.apart hx.1.1 hr hf hf' hn)) hre
    rw [hru]
    exact ⟨hv'.congr (restored_cons_iff hr), hca⟩
  · -- only a macro can be refused: the scripts and types were accepted before
    obtain ⟨kind, hd, hrf⟩ : ∃ kind, r.dispatch = some kind ∧ ¬ ∃ f,
        compile env r kind = .ok f ∧ if kind = .javascript then env.createFunction r = .ok ()
          else a v.functions f = .ok () := by
      simpa [Registrable] using hre
    obtain ⟨f, hf⟩ := isSome_iff_exists.1 (h.complete r hr (by simp [hd]))
    obtain ⟨k', hd', hc⟩ := definition_eq_some_iff.1 hf
    obtain rfl : k' = kind := some.inj (hd'.symm.trans hd)
    have hj : k' ≠ .javascript := by
      intro hj
      exact hrf ⟨f, hc, by rw [if_pos hj]; exact h.created r hr (hj ▸ hd)⟩
    have hru : (v.materialize env a r).1 = v := by
      rw [materialize, hd]
      simp only [hc, hj, createMacro]
      cases han : a v.functions f with
      | error e => rfl
      | ok u => exact absurd ⟨f, hc, by rw [if_neg hj]; exact han⟩ hrf
    rw [hru]
    refine ⟨hv.congr fun x => ?_, rfl⟩
    refine and_congr_right fun hx => imp_congr_right fun hxj => ?_
    rw [mem_cons, or_iff_right]
    rintro rfl
    rw [hd, some.injEq] at hxj
    exact hj hxj

theorem reflects_foldl (a : MacroAnswers) (h : w.Consistent env) (rs : List RoutineMeta)
    (hrs : ∀ r ∈ rs, w.Listed r) {v : UdfWorld} (hv : Reflects env (w.Restored done) v) :
    Reflects env (w.Restored (rs.reverse ++ done))
        (rs.foldl (fun v r => (v.materialize env a r).1) v) ∧
      (rs.foldl (fun v r => (v.materialize env a r).1) v).catalog = v.catalog := by
  induction rs generalizing v done with
  | nil => exact ⟨hv, rfl⟩
  | cons r rs ih =>
    obtain ⟨hs, hc⟩ := reflects_rematerialize a h hv
      (hrs r mem_cons_self)
    obtain ⟨hr, hc'⟩ := ih (fun x hx => hrs x (mem_cons_of_mem _ hx)) hs
    rw [reverse_cons, append_assoc]
    exact ⟨hr, hc'.trans hc⟩

/-- The datasets a restart goes through are those of the catalog, in some order. -/
def Lists (w : UdfWorld) (datasets : List (String × String)) : Prop :=
  ∀ key, key ∈ datasets ↔ (w.catalog.datasets.get? key).isSome

/-- A restart registers every routine again. -/
theorem reflects_restart (a : MacroAnswers) (h : w.Consistent env) (hd : w.Lists datasets) :
    Reflects env w.Listed (w.restart env a datasets) ∧
      (w.restart env a datasets).catalog = w.catalog := by
  let rs := datasets.flatMap fun d => w.catalog.listRoutines d.1 d.2
  have hm : ∀ r, r ∈ rs ↔ w.Listed r := by
    intro r
    simp only [rs, mem_flatMap, listRoutines, mem_filter]
    constructor
    · rintro ⟨d, -, hr, -⟩
      exact hr
    · intro hr
      refine ⟨(r.projectId, r.datasetId), (hd _).2 (h.placed r hr), hr, ?_⟩
      simp [inDataset, RoutineMeta.key]
  obtain ⟨hre, hc⟩ := reflects_foldl a h rs
    (fun r hr => (hm r).1 hr) (reflects_restored_nil h)
  refine ⟨hre.congr fun r => ?_, hc⟩
  refine ⟨fun hr => hr.1, fun hr => ⟨hr, fun _ => ?_⟩⟩
  rw [append_nil, mem_reverse]
  exact (hm r).2 hr

/-! ## Single operations -/

end UdfWorld

/-- **What is known of a plan**: a routine to be written lies in a dataset that is there or in the
place of the one before, and one to be removed is in the catalog. -/
def RoutinePlan.Fits (c : MemoryRepository) : RoutinePlan → Prop
  | .write c' r => c' = { c with routines := c.routines.put r } ∧
      ((c.routines.get? r.key).isSome ∨ (c.datasets.get? (r.projectId, r.datasetId)).isSome)
  | .remove existing _ => existing ∈ c.routines.rows
  | .skip => True

variable {c : MemoryRepository} {plan : RoutinePlan}

theorem fits_of_create (h : (c.createRoutine r).map (RoutinePlan.write · r) = .ok plan) :
    plan.Fits c := by
  obtain ⟨c', hc, rfl⟩ := map_eq_ok_iff.1 h
  obtain ⟨-, hd, rfl⟩ := createInDataset_map_eq_ok_iff.1 hc
  exact ⟨rfl, .inr hd⟩

theorem fits_of_update (h : (c.updateRoutine r).map (RoutinePlan.write · r) = .ok plan) :
    plan.Fits c := by
  obtain ⟨c', hc, rfl⟩ := map_eq_ok_iff.1 h
  obtain ⟨hr, rfl⟩ := updateIn_map_eq_ok hc
  exact ⟨rfl, .inl hr⟩

theorem fits_of_get {e : RoutineMeta} {n : Bool}
    (h : c.getRoutine key = some e) : (RoutinePlan.remove e n).Fits c :=
  (get?_eq_some_iff.1 h).1

theorem RoutineOp.plan_fits (h : op.plan c = .ok plan) : plan.Fits c := by
  cases op with
  | insert =>
    obtain ⟨r, -, h⟩ := bind_eq_ok_iff.1 h
    obtain ⟨-, -, h⟩ := bind_eq_ok_iff.1 h
    exact fits_of_create h
  | replace =>
    obtain ⟨e, -, h⟩ := bind_eq_ok_iff.1 h
    obtain ⟨r, -, h⟩ := bind_eq_ok_iff.1 h
    exact fits_of_update h
  | delete key =>
    obtain ⟨e, hf, rfl⟩ := map_eq_ok_iff.1 h
    cases hr : c.getRoutine key with
    | none => simp [hr, Requests.orNotFound] at hf
    | some r =>
      simp only [hr, Requests.orNotFound, elim_some, ok.injEq] at hf
      exact fits_of_get (hf ▸ hr)
  | upsert r o =>
    simp only [RoutineOp.plan] at h
    cases hr : c.getRoutine r.key with
    | none =>
      rw [hr] at h
      exact fits_of_create h
    | some =>
      rw [hr] at h
      cases o with
      | true => exact fits_of_update h
      | false => cases h
  | drop key i =>
    simp only [RoutineOp.plan] at h
    cases hr : c.getRoutine key with
    | none =>
      rw [hr] at h
      cases i with
      | true => cases h; trivial
      | false => cases h
    | some =>
      rw [hr] at h
      cases h
      exact fits_of_get hr
  | restart => cases h; trivial

namespace UdfWorld

/-- **The writes that keep the registrations in step**: the definition is accepted, the routine
keeps its runtime, and its name is, in any case of letters, that of no other. -/
structure WriteSafe (env : UdfEnv) (answers : MacroAnswers) (w : UdfWorld) (r : RoutineMeta) :
    Prop where
  registrable : Registrable env answers w r
  sameRuntime : ∀ old, w.catalog.getRoutine r.key = some old →
    old.dispatch = none ∨ old.dispatch = r.dispatch
  ownName : ∀ x, w.Listed x → x.key ≠ r.key → x.dispatch ≠ none → r.dispatch ≠ none →
    (qualifiedRoutineName x).map Text.lower ≠ (qualifiedRoutineName r).map Text.lower

/-- **The operations that keep the registrations in step**: what they write is safe. A restart goes
through the catalog's datasets. -/
structure Safe (env : UdfEnv) (answers : MacroAnswers) (w : UdfWorld) (op : RoutineOp) : Prop where
  writes : ∀ c r, op.plan w.catalog = .ok (.write c r) → w.WriteSafe env answers r
  restarts : ∀ datasets, op = .restart datasets → w.Lists datasets

variable {w : UdfWorld}

theorem Consistent.mono (h : w.Consistent env) {w' : UdfWorld}
    (hl : ∀ x, w'.Listed x → w.Listed x) (hr : Reflects env w'.Listed w')
    (hd : w'.catalog.datasets = w.catalog.datasets) : w'.Consistent env where
  reflects := hr
  complete x hx := h.complete x (hl x hx)
  created x hx := h.created x (hl x hx)
  apart _ _ _ _ hx hy := h.apart (hl _ hx) (hl _ hy)
  placed x hx := hd ▸ h.placed x (hl x hx)

theorem consistent_write (h : w.Consistent env) (hfi : (RoutinePlan.write c r).Fits w.catalog)
    (hs : w.WriteSafe env answers r) :
    ∃ w', w.carryOut env answers (.write c r) = (w', .ok ()) ∧ w'.Consistent env := by
  obtain ⟨rfl, hp⟩ := hfi
  let v : UdfWorld := { w with catalog := { w.catalog with routines := w.catalog.routines.put r } }
  have hv : Reflects env w.Listed v := ⟨h.reflects.functions, h.reflects.contexts⟩
  have hot : ∀ x, Others RoutineMeta.key w.Listed r.key x → ∀ f f', definition env x = some f →
      definition env r = some f' → Text.lower f.name ≠ Text.lower f'.name := by
    intro x hx f f' hf hf' hn
    refine hs.ownName x hx.1 hx.2 ?_ ?_ ?_
    · simp [dispatch_of_definition hf]
    · simp [dispatch_of_definition hf']
    · rw [name_of_definition hf, name_of_definition hf']
      exact congrArg ok hn
  obtain ⟨w', hr, hc, hre⟩ := reflects_materialize hv h.apart
    (fun x hx hk => hs.sameRuntime x (hk ▸ mem_iff_get?.1 hx)) hot
    hs.registrable
  have hl : ∀ x, w'.Listed x ↔ x = r ∨ Others RoutineMeta.key w.Listed r.key x := by
    intro x
    rw [Listed, hc]
    exact mem_put
  refine ⟨w', hr, hre.congr fun x => (hl x).symm, ?_, ?_, ?_, ?_⟩
  · intro x hx hne
    rcases (hl x).1 hx with rfl | ho
    · obtain ⟨kind, hki⟩ := ne_none_iff_exists'.1 hne
      obtain ⟨f, hf, -⟩ := hs.registrable kind hki
      exact isSome_iff_exists.2 ⟨f, definition_eq_some_iff.2 ⟨kind, hki, hf⟩⟩
    · exact h.complete x ho.1 hne
  · intro x hx hj
    rcases (hl x).1 hx with rfl | ho
    · obtain ⟨f, -, hcr⟩ := hs.registrable _ hj
      simpa using hcr
    · exact h.created x ho.1 hj
  · intro x y f f' hx hy hf hf' hn
    rcases (hl x).1 hx with rfl | hol <;> rcases (hl y).1 hy with rfl | hoy
    · rfl
    · exact absurd hn.symm (hot y hoy f' f hf' hf)
    · exact absurd hn (hot x hol f f' hf hf')
    · exact h.apart hol.1 hoy.1 hf hf' hn
  · intro x hx
    rw [hc]
    rcases (hl x).1 hx with rfl | ho
    · rcases hp with hro | hds
      · obtain ⟨o, ho⟩ := isSome_iff_exists.1 hro
        have hk := key_of_get? ho
        have hd := h.placed o (get?_eq_some_iff.1 ho).1
        simp only [RoutineMeta.key, Prod.mk.injEq] at hk
        rwa [hk.1, hk.2.1] at hd
      · exact hds
    · exact h.placed x ho.1

theorem consistent_remove (a : MacroAnswers) (h : w.Consistent env) (hr : w.Listed r)
    (n : Bool) :
    ∃ w', w.carryOut env a (.remove r n) = (w', .ok ()) ∧ w'.Consistent env := by
  obtain ⟨v, hru, hc, hre⟩ := reflects_deregister h.reflects h.apart hr
    (fun x hx hk => hx.eq_of_key hr hk) (h.complete r hr)
  have hd : v.catalog.deleteRoutine r.key n =
      .ok { v.catalog with routines := v.catalog.routines.erase r.key } := by
    have hg : v.catalog.routines.get? r.key = some r := hc ▸ Keyed.mem_iff_get?.1 hr
    simp [MemoryRepository.deleteRoutine, deleteFrom, hg, Except.map]
  let w' : UdfWorld :=
    { v with catalog := { v.catalog with routines := v.catalog.routines.erase r.key } }
  have hl : ∀ x, w'.Listed x ↔ Others RoutineMeta.key w.Listed r.key x := by
    intro x
    refine Keyed.mem_erase.trans ?_
    rw [hc]
    rfl
  refine ⟨w', ?_, h.mono (fun x hx => ((hl x).1 hx).1) ?_ (by rw [← hc])⟩
  · rw [carryOut, hru]
    simp only [hd, w']
  · exact Reflects.congr ⟨hre.functions, hre.contexts⟩ fun x => (hl x).symm

theorem consistent_restart (h : w.Consistent env) (hd : w.Lists datasets) :
    (w.restart env answers datasets).Consistent env := by
  obtain ⟨hr, hc⟩ := reflects_restart answers h hd
  have hl : (w.restart env answers datasets).Listed = w.Listed := by
    unfold Listed
    rw [hc]
  exact h.mono (fun x => hl ▸ id) (hl ▸ hr) (by rw [hc])

theorem step_of_ne_restart (ho : ∀ d, op ≠ .restart d) :
    w.step env answers op = match op.plan w.catalog with
      | .error e => (w, .error e)
      | .ok plan => w.carryOut env answers plan := by
  cases op with
  | restart d => exact absurd rfl (ho d)
  | _ => rfl

theorem consistent_step (h : w.Consistent env) (hs : w.Safe env answers op) :
    (w.step env answers op).1.Consistent env ∧
      ∀ e, (w.step env answers op).2 = .error e → (w.step env answers op).1 = w := by
  have hpl : (∀ d, op ≠ .restart d) →
      (w.step env answers op).1.Consistent env ∧
        ∀ e, (w.step env answers op).2 = .error e → (w.step env answers op).1 = w := by
    intro ho
    rw [step_of_ne_restart ho]
    cases hp : op.plan w.catalog with
    | error e => exact ⟨h, fun _ _ => rfl⟩
    | ok plan =>
      have hf := RoutineOp.plan_fits hp
      cases plan with
      | write c r =>
        obtain ⟨w', hr, hw'⟩ := consistent_write h hf (hs.writes c r hp)
        simp only [hr]
        exact ⟨hw', fun e he => by cases he⟩
      | remove r n =>
        obtain ⟨w', hr, hw'⟩ := consistent_remove answers h hf n
        simp only [hr]
        exact ⟨hw', fun e he => by cases he⟩
      | skip => exact ⟨h, fun _ _ => rfl⟩
  cases op with
  | restart d =>
    exact ⟨consistent_restart h (hs.restarts d rfl), fun e he => by cases he⟩
  | _ => exact hpl fun _ heq => by cases heq

/-! ## Runs -/

def Covered (env : UdfEnv) : UdfWorld → List (MacroAnswers × RoutineOp) → Prop
  | _, [] => True
  | w, s :: rest => w.Safe env s.1 s.2 ∧ Covered env (w.step env s.1 s.2).1 rest

/-- **An operation does what is asked of it**: the functions are those of the catalog, a failure
changes neither, and a restart leaves every routine callable. -/
structure StepCorrect (env : UdfEnv) (w : UdfWorld) (s : MacroAnswers × RoutineOp) : Prop where
  exact : (w.step env s.1 s.2).1.Exact env
  failed : ∀ e, (w.step env s.1 s.2).2 = .error e →
    (w.step env s.1 s.2).1.catalog = w.catalog ∧ (w.step env s.1 s.2).1.functions = w.functions
  restarted : ∀ datasets, s.2 = .restart datasets →
    ∀ r, w.Callable env r → (w.step env s.1 s.2).1.Callable env r

def Correct (env : UdfEnv) : UdfWorld → List (MacroAnswers × RoutineOp) → Prop
  | w, [] => w.Exact env
  | w, s :: rest => w.Exact env ∧ w.StepCorrect env s ∧ Correct env (w.step env s.1 s.2).1 rest

theorem stepCorrect_of_consistent (h : w.Consistent env) {s : MacroAnswers × RoutineOp}
    (hs : w.Safe env s.1 s.2) : w.StepCorrect env s := by
  obtain ⟨hn, hfa⟩ := consistent_step h hs
  refine ⟨hn.exact, fun e he => ?_, fun datasets ho r hr => ?_⟩
  · rw [hfa e he]
    exact ⟨rfl, rfl⟩
  obtain ⟨a, op⟩ := s
  obtain rfl : op = .restart datasets := ho
  obtain ⟨hre, hc⟩ := reflects_restart a h
    (hs.restarts datasets rfl)
  refine ⟨?_, fun hne => ?_⟩
  · show r ∈ (w.restart env a datasets).catalog.routines.rows
    rw [hc]
    exact hr.1
  · obtain ⟨f, -, hf⟩ := hr.2 hne
    exact ⟨f, (hre.functions f).2 ⟨r, hr.1, hf⟩, hf⟩

end UdfWorld

/-- **In every run of safe operations the functions are exactly the catalog's routines**, failed
operations change nothing, and restarts lose nothing. -/
theorem routines_registered {w : UdfWorld} (h : w.Consistent env)
    {steps : List (MacroAnswers × RoutineOp)} (hrun : w.Covered env steps) :
    w.Correct env steps := by
  induction steps generalizing w with
  | nil => exact h.exact
  | cons s r ih =>
    obtain ⟨hs, hr⟩ := hrun
    exact ⟨h.exact, stepCorrect_of_consistent h hs, ih (consistent_step h hs).1 hr⟩

def lenientCompilers : UdfEnv where
  ctx := .ofCatalog {} 0 7
  translateBody := .ok
  evalScript _ := .ok ()
  createFunction _ := .ok ()

def oneDatasetWorld : UdfWorld where
  catalog := { datasets := empty.put { projectId := "p", datasetId := "d" } }

def insertFunction (body : String) : RoutineOp :=
  .insert "p" "d"
    { routineReference := some "f", definitionBody := some (.leaf (.unparsed body)) }

/-- A database without a function `no_such_function`. -/
def smallDatabase : MacroAnswers := fun _ f =>
  match f.body with
  | .leaf (.unparsed "no_such_function()") => .error (.invalidQuery "no_such_function")
  | _ => .ok ()

theorem consistent_oneDatasetWorld : oneDatasetWorld.Consistent lenientCompilers := by
  have hn : ∀ r, ¬ oneDatasetWorld.Listed r := fun r hr => by cases hr
  refine ⟨⟨fun f => ?_, fun c => ?_⟩, ?_, ?_, ?_, ?_⟩
  · exact iff_of_false not_mem_nil fun ⟨r, hr, _⟩ => hn r hr
  · exact iff_of_false not_mem_nil fun ⟨r, hr, _⟩ => hn r hr
  · exact fun r hr => absurd hr (hn r)
  · exact fun r hr => absurd hr (hn r)
  · exact fun r _ _ _ hr => absurd hr (hn r)
  · exact fun r hr => absurd hr (hn r)

/-- A function created in a new dataset and a restart. -/
theorem routines_registered_restart :
    oneDatasetWorld.Correct lenientCompilers
      [(smallDatabase, insertFunction "1 + 1"), (smallDatabase, .restart [("p", "d")])] := by
  apply routines_registered consistent_oneDatasetWorld
  refine ⟨⟨fun c r hp => ?_, fun _ hop => nomatch hop⟩,
    ⟨fun c r hp => (nomatch hp), fun datasets hop => ?_⟩, trivial⟩
  · cases hp
    refine ⟨fun kind hki => ?_, fun old ho => (nomatch ho), fun x hx => nomatch hx⟩
    cases hki
    exact ⟨_, rfl, rfl⟩
  cases hop
  intro key
  show key ∈ [("p", "d")] ↔ (oneDatasetWorld.catalog.datasets.get? key).isSome
  simp only [oneDatasetWorld, get?_put]
  by_cases hk : ("p", "d") = key
  · simp [DatasetMeta.key, hk]
  · simpa [DatasetMeta.key, hk] using Ne.symm hk

/-- The database refuses the body: the request fails, and the routine is in the catalog without a
function. -/
theorem routines_not_registered :
    let w := oneDatasetWorld.step lenientCompilers smallDatabase
      (insertFunction "no_such_function()")
    w.2 = .error (.invalidQuery "no_such_function") ∧
      (oneDatasetWorld.catalog.getRoutine ("p", "d", "f")).isNone ∧
      (w.1.catalog.getRoutine ("p", "d", "f")).isSome ∧ w.1.functions.rows.length = 0 := by
  decide +kernel

end Bqemulator
