import Bqemulator.Lib.UndoLog
import Bqemulator.Scripting.Rules
import Bqemulator.Storage.Tables

/-!
# Transactions

A transaction of a script is undone from backups: the first `INSERT`, `UPDATE`, `DELETE` or `MERGE`
on a table copies it, and `ROLLBACK` restores the copies. `TRUNCATE`, dynamic statements and
procedures take no backup, and a handler drops them. A table named in two spellings is copied twice,
and the later copy is restored last.
-/

namespace Bqemulator

open Comp UndoLog List Option Storage

variable {σ Row : Type}

/-! ## Backups -/

def backupKey (name : String) : String × String := ("main", name)

/-- The tables of datasets, unlike those of backups. -/
def IsUser (key : String × String) : Prop := key.1 ≠ "main"

instance (key : String × String) : Decidable (IsUser key) :=
  inferInstanceAs (Decidable (key.1 ≠ "main"))

theorem lower_schemaName_ne_main (p d : String) : Text.lower (schemaName p d) ≠ "main" := by
  intro h
  have hi : ['_', '_'] <:+: (Text.lower (schemaName p d)).toList := by
    rw [schemaName, Text.lower_append, Text.lower_append, String.toList_append,
      String.toList_append]
    exact ⟨(Text.lower p).toList, (Text.lower d).toList, rfl⟩
  rw [h] at hi
  revert hi
  decide

variable {target : String × String}

theorem isUser_of_mem_dmlTargets {s : Sql} {p : String}
    (h : target ∈ dmlTargets s p) : IsUser (physical target) := by
  rw [dmlTargets] at h
  split at h
  · cases h
  · split at h
    · cases h
    · obtain rfl := mem_singleton.1 h
      exact lower_schemaName_ne_main _ _

namespace Storage

variable (st : Storage Row)

/-- The SQL of a backup. -/
def backup (target : String × String) (name : String) : Option (Storage Row) :=
  match st.get target, st.get (backupKey name) with
  | some rows, none => some (st.put (backupKey name) rows)
  | _, _ => none

/-- `DELETE FROM target`, `INSERT INTO target SELECT * FROM backup`, `DROP TABLE backup`; the first
that fails ends it. -/
def restore (target : String × String) (name : String) : Storage Row :=
  match st.get target with
  | none => st
  | some _ =>
    match (st.put target []).get (backupKey name) with
    | none => st.put target []
    | some rows => (st.put target rows).drop (backupKey name)

variable {name : String}

theorem backup_eq_some {st s' : Storage Row} (h : st.backup target name = some s') :
    st.get target ≠ none ∧ st.get (backupKey name) = none ∧
      s'.get (backupKey name) = st.get target ∧
      ∀ k, k ≠ backupKey name → s'.get k = st.get k := by
  rw [backup] at h
  split at h
  · rename_i rows hr hn
    obtain rfl := some.inj h
    refine ⟨by rw [hr]; exact some_ne_none _, hn, ?_, fun k hk => ?_⟩
    · rw [get_put_self, hr]
    · exact get_put_of_ne _ _ hk
  · cases h

theorem get_restore_of_ne {k : String × String} (hk : k ≠ target)
    (hn : k ≠ backupKey name) : (st.restore target name).get k = st.get k := by
  rw [restore]
  cases st.get target with
  | none => rfl
  | some o =>
    simp only
    split
    · exact get_put_of_ne _ _ hk
    · rw [get_drop_of_ne _ hn, get_put_of_ne _ _ hk]

theorem get_restore_self (hn : target ≠ backupKey name)
    (ht : st.get target ≠ none) (hb : st.get (backupKey name) ≠ none) :
    (st.restore target name).get target = st.get (backupKey name) := by
  obtain ⟨o, ho⟩ := ne_none_iff_exists'.1 ht
  obtain ⟨rows, hr⟩ := ne_none_iff_exists'.1 hb
  rw [restore, ho]
  simp only [get_put_of_ne _ _ hn.symm, hr]
  rw [get_drop_of_ne _ hn, get_put_self]

end Storage

/-- The environment keeps tables and backups in a storage, where names are found in any case; the
names of backups are new, and the check before `DROP SCHEMA` changes no table. -/
structure ScriptEnv.StoresIn (env : ScriptEnv σ) (st : σ → Storage Row) : Prop where
  backup : ∀ target name w, (env.backup target name w).map st = (st w).backup (physical target) name
  restore : ∀ target name w, st (env.restore target name w) = (st w).restore (physical target) name
  fresh : ∀ w, (st w).get (backupKey (env.backupName w)) = none
  assert : ∀ project sql w,
    st (env.perform (.assertDropSchemaAllowed project sql) w).2 = st w

/-! ## The machine -/

abbrev Txn (σ : Type) := Option (List ((String × String) × String)) × σ

def Core.txn (c : Core σ) : Txn σ := (c.activeTxn, c.world)

section Machine

variable (env : ScriptEnv σ) (st : σ → Storage Row)

/-- The targets of a statement have a backup if a transaction is open, or there is no such table. -/
def CoversTargets (project sql : String) (c : Txn σ) : Prop :=
  ∀ backups, c.1 = some backups → ∀ target ∈ dmlTargets (env.parseSql sql) project,
    target ∈ backups.map Prod.fst ∨ (st c.2).get (physical target) = none

/-- The steps of the machine, by their events. A statement of the script is run when its targets
are backed up. -/
inductive TxnStep : Txn σ → Event σ → Txn σ → Prop
  | statement (c : Txn σ) : TxnStep c .statement c
  | leftFor (c : Txn σ) : TxnStep c .leftFor c
  | effect (txn) (e : Effect) (w w' : σ)
      (hcovers : ∀ project sql visible, e = .runQuery true project sql visible →
        CoversTargets env st project sql (txn, w)) :
      TxnStep (txn, w) (.effect e w w') (txn, w')
  | called (txn) (trace : List (Event σ)) (escaped : Option Exn) (w w' : σ) :
      TxnStep (txn, w) (.called trace escaped w w') (txn, w')
  | backup (backups) (target : String × String) (w w' : σ) (huser : IsUser (physical target))
      (hnew : ∀ b ∈ backups, b.1 ≠ target)
      (hbackup : env.backup target (env.backupName w) w = some w') :
      TxnStep (some backups, w) (.backup target (env.backupName w) w w')
        (some (backups ++ [(target, env.backupName w)]), w')
  | begin_ (txn) (w : σ) : TxnStep (txn, w) (.txn .begin_ w w) (some (txn.getD []), w)
  | drop (txn) (cause : TxnCause) (w w' : σ) (hcause : cause.drops = true) :
      TxnStep (txn, w) (.txn cause w w') (none, w')
  | restore (txn) (cause : TxnCause) (w : σ) (hcause : cause.restores = true) :
      TxnStep (txn, w) (.txn cause w (restoreAll env (txn.getD []) w))
        (none, restoreAll env (txn.getD []) w)

/-- The machine of an interpreter's transactions. -/
inductive TxnPath : Txn σ → List (Event σ) → Txn σ → Prop
  | nil (c : Txn σ) : TxnPath c [] c
  | cons {c c' c'' : Txn σ} {x : Event σ} {trace : List (Event σ)} (hstep : TxnStep env st c x c')
      (hrest : TxnPath c' trace c'') : TxnPath c (x :: trace) c''

end Machine

section Paths

variable {env : ScriptEnv σ} {st : σ → Storage Row} {c c' c'' : Txn σ} {t t' : List (Event σ)}

theorem TxnPath.append (h : TxnPath env st c t c') (h' : TxnPath env st c' t' c'') :
    TxnPath env st c (t ++ t') c'' := by
  induction h with
  | nil c => exact h'
  | cons hs hr ih => exact .cons hs (ih h')

theorem TxnPath.split (h : TxnPath env st c (t ++ t') c'') :
    ∃ c', TxnPath env st c t c' ∧ TxnPath env st c' t' c'' := by
  induction t generalizing c with
  | nil => exact ⟨c, .nil c, h⟩
  | cons x r ih =>
    cases h with
    | cons hs hr =>
      obtain ⟨c', hl, hri⟩ := ih hr
      exact ⟨c', .cons hs hl, hri⟩

protected theorem TxnPath.one {x : Event σ} (h : TxnStep env st c x c') : TxnPath env st c [x] c' :=
  .cons h (.nil _)

/-- A run of an interpreter as a path. -/
def Traced (env : ScriptEnv σ) (st : σ → Storage Row) (c : Core σ) (t : List (Event σ))
    (c' : Core σ) : Prop :=
  TxnPath env st c.txn t c'.txn

theorem traced_sequential (e : ScriptEnv σ) (st : σ → Storage Row) :
    Sequential (Traced e st) where
  refl _ := .nil _
  trans h h' := TxnPath.append h h'

theorem traced_attempt {e : Interp σ → Effect} {s : Interp σ}
    (hc : ∀ project sql visible, e s = .runQuery true project sql visible →
      CoversTargets env st project sql s.core.txn) :
    onCore (Traced env st) s (attempt env e s).trace (attempt env e s).state :=
  TxnPath.one (.effect _ _ _ _ hc)

/-! ## Runs are paths -/

theorem traced_snapshotTarget (hu : IsUser (physical target)) :
    Respects (onCore (Traced env st)) (snapshotTarget env target) := by
  intro s
  rcases snapshotTarget_cases env target s with ⟨h, -⟩ | ⟨b, after, ht, hn, hb, h⟩
  · rw [h]
    exact .nil _
  · rw [h, onCore, Traced]
    simp only [Interp.core, Core.txn, ht]
    exact .one (.backup _ _ _ _ hu hn hb)

theorem traced_effects (env : ScriptEnv σ) (st : σ → Storage Row) :
    EffectRule env (onCore (Traced env st)) where
  seqN := onCore_sequential (traced_sequential env st)
  attempt e he s := traced_attempt fun p sql v hq => by
    have := he s
    rw [hq] at this
    cases this

theorem perform_state (e : Interp σ → Effect) (s : Interp σ) :
    (perform env e s).state = { s with world := (env.perform (e s) s.world).2 } := by
  have hr : (attempt env e s).result = .ok (env.perform (e s) s.world).1 := rfl
  rw [perform, run_bind_of_ok hr]
  cases (env.perform (e s) s.world).1 <;> rfl

theorem traced_snapshotDmlTargets (p sql : String) :
    Respects (onCore (Traced env st)) (snapshotDmlTargets env p sql) := by
  rw [snapshotDmlTargets]
  have hu : ∀ target ∈ dmlTargets (env.parseSql sql) p, IsUser (physical target) :=
    fun _ => isUser_of_mem_dmlTargets
  generalize dmlTargets (env.parseSql sql) p = targets at hu ⊢
  induction targets with
  | nil => exact (traced_effects env st).pure _
  | cons target r ih =>
    exact (traced_effects env st).bind
      (traced_snapshotTarget (hu target mem_cons_self)) fun _ =>
        ih fun target ht => hu target (mem_cons_of_mem _ ht)

variable (h : env.StoresIn st)

include h

theorem get_of_backup_none {w : σ} (hn : env.backup target (env.backupName w) w = none) :
    (st w).get (physical target) = none := by
  have hs := h.backup target (env.backupName w) w
  rw [hn, map_none, backup, h.fresh w] at hs
  cases hg : (st w).get (physical target) with
  | none => rfl
  | some =>
    rw [hg] at hs
    cases hs

theorem covers_snapshotDmlTargets (p sql : String) (s : Interp σ) :
    CoversTargets env st p sql (snapshotDmlTargets env p sql s).state.core.txn := by
  rcases dmlTargets_cases (env.parseSql sql) p with hni | ⟨target, hon⟩
  · intro backups _ target ht
    rw [hni] at ht
    cases ht
  have hst : (snapshotDmlTargets env p sql s).state = (snapshotTarget env target s).state := by
    rw [snapshotDmlTargets, hon, foldr_cons, foldr_nil]
    rcases snapshotTarget_cases env target s with ⟨hs, -⟩ | ⟨_, _, -, -, -, hs⟩ <;>
      rw [run_bind_of_ok (congrArg Outcome.result hs)] <;> rfl
  intro backups ho t' ht'
  rw [hon, mem_singleton] at ht'
  subst ht'
  rw [hst] at ho ⊢
  rcases snapshotTarget_cases env t' s with ⟨hs, hw⟩ | ⟨o, after, -, -, -, hs⟩
  · rw [hs] at ho ⊢
    rcases hw backups ho with ⟨b, hb, rfl⟩ | hn
    · exact .inl (mem_map_of_mem hb)
    · exact .inr (get_of_backup_none h hn)
  · rw [hs] at ho
    obtain rfl := some.inj ho
    exact .inl (by simp)

theorem traced_execSqlStatement (p sql : String) :
    Respects (onCore (Traced env st)) (execSqlStatement env p sql) := by
  have rule := traced_effects env st
  have hf : ∀ table, Respects (onCore (Traced env st)) (setFinalTable table) :=
    fun table s => .nil _
  have hm : ∀ e : Interp σ → Effect, (∀ s, (e s).isSqlStatement = false) →
      Respects (onCore (Traced env st)) (perform env e >>= fun _ => setFinalTable none) :=
    fun e he => rule.bind (rule.perform e he) fun _ => hf _
  intro s
  have hc := covers_snapshotDmlTargets h p sql s
  rw [execSqlStatement]
  refine bind_at rule.seqN (traced_snapshotDmlTargets p sql s) fun u _ => ?_
  generalize (snapshotDmlTargets env p sql s).state = s' at hc ⊢
  cases env.versioningDdl p sql with
  | some d => exact hm (fun _ => .versioningDdl d) (fun _ => rfl) s'
  | none =>
    simp only
    split
    · exact hm (fun s => .exportData p sql (allVisible s.frames)) (fun _ => rfl) s'
    split
    · exact hm (fun s => .createModel p sql (allVisible s.frames)) (fun _ => rfl) s'
    have ha : Respects (onCore (Traced env st))
        (perform env fun _ => .assertDropSchemaAllowed p sql) :=
      rule.perform _ fun _ => rfl
    refine bind_at rule.seqN (ha s') fun u' _ => ?_
    rw [perform_state]
    refine bind_at rule.seqN ?_ fun table _ => rule.bind (hf _)
      (fun _ => rule.bind (rule.perform _ fun _ => rfl) fun _ => rule.pure _) _
    refine bind_at rule.seqN (traced_attempt fun p' sql' v hq => ?_) fun r _ => ?_
    · -- the check before the statement has changed no table
      cases hq
      intro b ho target ht
      have hs := h.assert p sql s'.world
      rcases hc b ho target ht with hme | hn
      · exact .inl hme
      · exact .inr ((congrArg (fun st => get st (physical target)) hs).trans hn)
    · rcases r with (e | message | message) | table
      · exact rule.raise _ _
      · exact rule.raise _ _
      · exact rule.raise _ _
      · exact rule.pure _ _

/-- Every run of an interpreter is a path. -/
theorem txnPath_rule : CoreRule env (Traced env st) where
  seq := traced_sequential env st
  leftFor _ := .one (.leftFor _)
  attempt e he := (traced_effects env st).attempt e he
  count s := by
    rw [countStatement]
    split
    · exact .nil _
    · exact .one (.statement _)
  beginTxn s := .one (.begin_ _ _)
  dropTxn cause hc s := .one (.drop _ _ _ _ hc)
  restoreTxn cause hc s := by
    have ha : (restoreTxnSnapshots env cause s).state.world =
        restoreAll env (s.activeTxn.getD []) s.world := by
      simp only [restoreTxnSnapshots, closeTxn]
      cases s.activeTxn <;> rfl
    have hs : TxnStep env st (s.activeTxn, s.world)
        (.txn cause s.world (restoreAll env (s.activeTxn.getD []) s.world))
        (none, restoreAll env (s.activeTxn.getD []) s.world) := .restore _ _ _ hc
    rw [← ha] at hs
    exact .one hs
  execSqlStatement := traced_execSqlStatement h
  called c t e c' _ := .one (.called _ _ _ _ _)

end Paths

/-! ## Undoing a transaction -/

section Undo

variable {env : ScriptEnv σ} {st : σ → Storage Row} (backups : List ((String × String) × String))

def undoLog : List ((String × String) × (String × String)) :=
  backups.map fun b => (physical b.1, backupKey b.2)

theorem map_fst_undoLog :
    (undoLog backups).map Prod.fst = (backups.map Prod.fst).map physical := by
  simp [undoLog]

/-- A step changes only tables that are no backups and that `b` does not have. -/
def ChangesNew (st : σ → Storage Row) (b w w' : σ) : Prop :=
  ∀ k, (st w').get k ≠ (st w).get k → IsUser k ∧ (st b).get k = none

/-- **The steps that a rollback undoes**, of a transaction opened in `b`: a static `INSERT`,
`UPDATE`, `DELETE` or `MERGE` that changes its target, in one spelling, and all that changes no
table that there was; no handler, and no end of the transaction. -/
def Event.Undoable (env : ScriptEnv σ) (st : σ → Storage Row)
    (spelling : String × String → String × String) (b : σ) : Event σ → Prop
  | .effect (.runQuery true project sql _) w w' => ∀ k, (st w').get k ≠ (st w).get k →
    (k ∈ (dmlTargets (env.parseSql sql) project).map physical ∧ (st w').get k ≠ none) ∨
      (IsUser k ∧ (st b).get k = none)
  | .effect _ w w' => ChangesNew st b w w'
  | .called _ _ w w' => ChangesNew st b w w'
  | .backup target _ _ _ => spelling (physical target) = target
  | .txn cause _ _ => cause = .begin_
  | _ => True

/-- The invariant of a transaction opened in `b`: the copies are of tables in one spelling, and
bring back what there was. -/
def OpenSince (st : σ → Storage Row) (spelling : String × String → String × String) (b : σ)
    (c : Txn σ) : Prop :=
  ∃ backups, c.1 = some backups ∧ (∀ x ∈ backups, spelling (physical x.1) = x.1) ∧
    Saved IsUser (st b).get (st c.2).get (undoLog backups)

variable {spelling : String × String → String × String} {b : σ}
  {txn : Option (List ((String × String) × String))}

theorem OpenSince.changesNew {w w' : σ} (h : OpenSince st spelling b (txn, w))
    (hc : ChangesNew st b w w') : OpenSince st spelling b (txn, w') := by
  obtain ⟨backups, ho, hspelled, hs⟩ := h
  exact ⟨backups, ho, hspelled, hs.change fun k hk => .inr (hc k hk)⟩

theorem OpenSince.statement {w w' : σ} {p sql : String} (h : OpenSince st spelling b (txn, w))
    (hc : CoversTargets env st p sql (txn, w)) (hch : ∀ k, (st w').get k ≠ (st w).get k →
      (k ∈ (dmlTargets (env.parseSql sql) p).map physical ∧ (st w').get k ≠ none) ∨
        (IsUser k ∧ (st b).get k = none)) : OpenSince st spelling b (txn, w') := by
  obtain ⟨backups, ho, hspelled, hs⟩ := h
  refine ⟨backups, ho, hspelled, hs.change fun k hk => ?_⟩
  rw [map_fst_undoLog]
  rcases hch k hk with ⟨hk', hso⟩ | hne
  · obtain ⟨target, ht, rfl⟩ := mem_map.1 hk'
    have hu := isUser_of_mem_dmlTargets ht
    by_cases hm : physical target ∈ (backups.map Prod.fst).map physical
    · exact .inl ⟨hm, hso⟩
    -- a target without a backup did not exist, now or when the transaction was opened
    have hn := (hc backups ho target ht).resolve_left fun h => hm (mem_map_of_mem h)
    refine .inr ⟨hu, ?_⟩
    by_contra hb
    have hun := hs.untouched _ hu hb (by rwa [map_fst_undoLog])
    exact hb (hun.symm.trans hn)
  · exact .inr hne

theorem OpenSince.backup {backups : List ((String × String) × String)} {target : String × String}
    {w w' : σ} (ho : OpenSince st spelling b (some backups, w)) (h : env.StoresIn st)
    (hu : IsUser (physical target)) (hn : ∀ y ∈ backups, y.1 ≠ target)
    (hb : env.backup target (env.backupName w) w = some w')
    (hx : spelling (physical target) = target) :
    OpenSince st spelling b (some (backups ++ [(target, env.backupName w)]), w') := by
  obtain ⟨_, hs, hspelled, hsa⟩ := ho
  obtain rfl := some.inj hs
  have hst := h.backup target (env.backupName w) w
  rw [hb, map_some] at hst
  obtain ⟨ht, hf, hcp, hse⟩ := backup_eq_some hst.symm
  refine ⟨_, rfl, ?_, ?_⟩
  · intro y hy
    rcases mem_append.1 hy with hy | hy
    · exact hspelled y hy
    · rw [mem_singleton.1 hy]
      exact hx
  rw [undoLog, map_append, map_singleton]
  refine hsa.save hu (fun y hy => ?_) (fun hm => hm rfl) hf ht hcp hse
  -- two copies of one table would be in two spellings
  obtain ⟨y', hy', rfl⟩ := mem_map.1 hy
  intro heq
  refine hn y' hy' ?_
  rw [← hspelled y' hy', ← hx]
  exact congrArg spelling heq

theorem OpenSince.step (h : env.StoresIn st) {c c' : Txn σ} {x : Event σ}
    (hsp : TxnStep env st c x c') (hx : x.Undoable env st spelling b)
    (ho : OpenSince st spelling b c) :
    OpenSince st spelling b c' := by
  cases hsp with
  | statement | leftFor => exact ho
  | called => exact ho.changesNew hx
  | effect txn e w w' hco =>
    by_cases he : e.isSqlStatement = true
    · cases e with
      | runQuery isStatement p s v =>
        obtain rfl : isStatement = true := he
        exact ho.statement (hco p s v rfl) hx
      | _ => cases he
    · refine ho.changesNew ?_
      cases e with
      | runQuery isStatement p s v =>
        cases isStatement with
        | true => exact absurd rfl he
        | false => exact hx
      | _ => exact hx
  | backup backups target w w' hu hn hb => exact ho.backup h hu hn hb hx
  | begin_ txn w =>
    obtain ⟨backups, hs, hspelled, hsa⟩ := ho
    obtain rfl : txn = some backups := hs
    exact ⟨backups, rfl, hspelled, hsa⟩
  | drop _ cause _ _ hc | restore _ cause _ hc =>
    obtain rfl : cause = .begin_ := hx
    cases hc

/-- Along undoable steps every table is backed up or as it was. -/
theorem OpenSince.path (h : env.StoresIn st) {c c' : Txn σ} {t : List (Event σ)}
    (hp : TxnPath env st c t c') (ht : ∀ x ∈ t, x.Undoable env st spelling b)
    (ho : OpenSince st spelling b c) : OpenSince st spelling b c' := by
  induction hp with
  | nil c => exact ho
  | cons hs hr ih =>
    exact ih (fun x hx => ht x (mem_cons_of_mem _ hx))
      (ho.step h hs (ht _ mem_cons_self))

def openAfter : Bool → List (Event σ) → Bool
  | isOpen, [] => isOpen
  | _, .txn cause _ _ :: rest => openAfter (cause = .begin_) rest
  | isOpen, _ :: rest => openAfter isOpen rest

theorem TxnPath.isSome {c c' : Txn σ} {t : List (Event σ)} (hp : TxnPath env st c t c') :
    c'.1.isSome = openAfter c.1.isSome t := by
  induction hp with
  | nil c => rfl
  | cons hs hr ih =>
    cases hs with
    | drop txn cause w w' hc | restore txn cause w hc => cases cause <;> first | exact ih | cases hc
    | _ => exact ih

theorem openSince_begin {c c' : Txn σ} {b' : σ} (hs : TxnStep env st c (.txn .begin_ b b') c')
    (hcl : c.1 = none) : OpenSince st spelling b c' := by
  cases hs with
  | begin_ txn w =>
    obtain rfl : txn = none := hcl
    exact ⟨[], rfl, fun x hx => absurd hx not_mem_nil, saved_nil IsUser _⟩
  | drop txn cause w w' hc | restore txn cause w hc => cases hc

theorem store_restoreAll (h : env.StoresIn st) (w : σ) : st (restoreAll env backups w) =
    (undoLog backups).foldl (fun s x => s.restore x.1 x.2.2) (st w) := by
  induction backups generalizing w with
  | nil => rfl
  | cons x rest ih =>
    change st (restoreAll env rest (env.restore x.1 x.2 w)) = _
    rw [ih, h.restore]
    rfl

theorem OpenSince.rollback (h : env.StoresIn st) {b' a' : σ} {c c' : Txn σ}
    (hst : TxnStep env st c (.txn .rollback b' a') c') (ho : OpenSince st spelling b c)
    {k : String × String} (hk : IsUser k) (hb : (st b).get k ≠ none) :
    (st a').get k = (st b).get k := by
  cases hst with
  | drop txn cause w w' hca => cases hca
  | restore txn cause w hca =>
    obtain ⟨backups, hs, -, hsa⟩ := ho
    obtain rfl : txn = some backups := hs
    have hm : ∀ key : String × String, ¬ IsUser key → key = backupKey key.2 := by
      rintro ⟨s, name⟩ hke
      exact congrArg (·, name) (not_not.1 hke)
    have hu := hsa.undo Storage.get (fun x s => s.restore x.1 x.2.2) ?_ ?_ hk hb
    · rwa [← store_restoreAll backups h] at hu
    · intro x s k hc hce hn
      exact get_restore_of_ne _ hce (by rwa [← hm x.2 hc])
    · intro x s hce hc hs hco
      rw [hm x.2 hc] at hco ⊢
      exact get_restore_self _ (fun heq => hce (heq ▸ rfl)) hs hco

end Undo

/-- **Rollback**: in every run of an interpreter a `ROLLBACK` gives back to every table the rows it
had at the matching `BEGIN TRANSACTION`, if each step between them is one that it undoes. -/
theorem rollback_restores (env : ScriptEnv σ) (st : σ → Storage Row) (h : env.StoresIn st)
    (spelling : String × String → String × String)
    (depth : Nat) (project source : String) (s : Interp σ) (hs : s.activeTxn = none)
    {pre mid post : List (Event σ)} {b b₁ b' a' : σ}
    (htrace : (runScript env project (invokeProcedure env depth) source s).trace =
      pre ++ .txn .begin_ b b₁ :: (mid ++ .txn .rollback b' a' :: post))
    (hpre : openAfter false pre = false) (hmid : ∀ x ∈ mid, x.Undoable env st spelling b)
    {k : String × String} (hk : IsUser k) {rows : List Row} (hrows : (st b).get k = some rows) :
    (st a').get k = some rows := by
  have rule := txnPath_rule h
  have hr : Respects (onCore (Traced env st))
      (runScript env project (invokeProcedure env depth) source) :=
    rule.runScript (rule.invokeProcedure depth) source
  have hp := hr s
  rw [htrace, onCore, Traced] at hp
  obtain ⟨c, hl, hp⟩ := hp.split
  have hc : c.1 = none := by
    have ho := hl.isSome
    rw [show s.core.txn.1 = none from hs, isSome_none, hpre] at ho
    exact not_isSome_iff_eq_none.1 (by rw [ho]; exact Bool.false_ne_true)
  cases hp with
  | cons hb hp =>
    obtain ⟨c', hr, hp⟩ := hp.split
    have ho := (openSince_begin hb hc).path h hr hmid
    cases hp with
    | cons hro hpo =>
      rw [← hrows]
      exact ho.rollback h hro hk (by rw [hrows]; exact some_ne_none _)

/-! ## Scripts with transactions -/

def longerThan : List ((String × String) × List Row) → List Char
  | [] => ['0']
  | e :: rest => '0' :: (e.1.2.toList ++ longerThan rest)

theorem length_lt_longerThan {t : List ((String × String) × List Row)} :
    ∀ e ∈ t, e.1.2.toList.length < (longerThan t).length := by
  induction t with
  | nil => exact fun e he => by cases he
  | cons x r ih =>
    intro e he
    rw [longerThan, length_cons, length_append]
    rcases mem_cons.1 he with rfl | he
    · omega
    · have := ih e he
      omega

def Storage.newName (st : Storage Row) : String :=
  String.ofList (longerThan st.tables)

theorem Storage.get_newName (st : Storage Row) : st.get (backupKey st.newName) = none := by
  rw [get, lookup_eq_none_iff]
  intro e he
  rw [bne_iff_ne]
  intro hk
  have hl := length_lt_longerThan e he
  rw [← hk, backupKey, newName, String.toList_ofList] at hl
  exact Nat.lt_irrefl _ hl

def emptyingSql : String → Sql
  | "DELETE FROM d.t" => .node .delete [(.this, .leaf (.table { db := "d", name := "t" }))]
  | "DELETE FROM d.T" => .node .delete [(.this, .leaf (.table { db := "d", name := "T" }))]
  | "TRUNCATE TABLE d.t" =>
    .node .truncateTable [(.expressions, .leaf (.table { db := "d", name := "t" }))]
  | text => .leaf (.unparsed text)

def emptyingEffect (e : Effect) (w : Storage Nat) : Except Failure ResultTable × Storage Nat :=
  match e with
  | .runQuery true _ "DELETE FROM d.t" _ | .runQuery true _ "DELETE FROM d.T" _
  | .runQuery true _ "TRUNCATE TABLE d.t" _
  | .runStatementWithParams _ "DELETE FROM d.t" _ _ => (.ok {}, w.put ("p__d", "t") [])
  | .runQuery false _ _ _ => (.ok { columns := ["f"], rows := [[.string "DELETE FROM d.t"]] }, w)
  | _ => (.ok {}, w)

/-- Transactions that empty `d.t`: statically, in two spellings, by `TRUNCATE`, dynamically, by a
procedure, and with a rollback in a handler. -/
def emptyingScripts : String → Except DomainError (List Stmt)
  | "static" => .ok [.sql "BEGIN TRANSACTION", .sql "DELETE FROM d.t", .sql "ROLLBACK TRANSACTION"]
  | "spellings" => .ok [.sql "BEGIN TRANSACTION", .sql "DELETE FROM d.t", .sql "DELETE FROM d.T",
      .sql "ROLLBACK TRANSACTION"]
  | "truncate" =>
    .ok [.sql "BEGIN TRANSACTION", .sql "TRUNCATE TABLE d.t", .sql "ROLLBACK TRANSACTION"]
  | "dynamic" => .ok [.sql "BEGIN TRANSACTION", .executeImmediate "x" [] [],
      .sql "ROLLBACK TRANSACTION"]
  | "call" => .ok [.sql "BEGIN TRANSACTION", .call "d.clear" [], .sql "ROLLBACK TRANSACTION"]
  | "handler" => .ok [.begin_ [.sql "BEGIN TRANSACTION", .sql "DELETE FROM d.t", .raise none]
      (some [.sql "ROLLBACK TRANSACTION"])]
  | _ => .ok [.sql "DELETE FROM d.t"]

def emptyingEnv : ScriptEnv (Storage Nat) :=
  { ScriptEnv.idle _ with
    parseScript := emptyingScripts
    parseSql := emptyingSql
    getProcedure _ _ := some
      { projectId := "p", routineId := "clear", arguments := [], definitionBody := "body" }
    perform := emptyingEffect
    backup target name w := w.backup (physical target) name
    restore target name w := w.restore (physical target) name
    dropBackup name w := w.drop (backupKey name)
    backupName := newName }

theorem emptyingEnv_storesIn : emptyingEnv.StoresIn id where
  backup _ _ _ := map_id'
  restore _ _ _ := rfl
  fresh := get_newName
  assert _ _ _ := rfl

def overOneRow : Interp (Storage Nat) where
  frames := [{ kind := .root }]
  world := { tables := [(("p__d", "t"), [1])] }

def withBackup : Storage Nat :=
  overOneRow.world.put (backupKey overOneRow.world.newName) [1]

def withoutRows : Storage Nat := withBackup.put ("p__d", "t") []

def deleteSteps : List (Event (Storage Nat)) :=
  [.statement, .backup ("p__d", "t") overOneRow.world.newName overOneRow.world withBackup,
    .effect (.assertDropSchemaAllowed "p" "DELETE FROM d.t") withBackup withBackup,
    .effect (.runQuery true "p" "DELETE FROM d.t" []) withBackup withoutRows,
    .effect (.syncDdl "p" "DELETE FROM d.t") withoutRows withoutRows, .statement]

/-- A static `DELETE` is undone. -/
theorem rollback_restores_delete :
    withoutRows.get ("p__d", "t") = some [] ∧
      (withoutRows.restore ("p__d", "t") overOneRow.world.newName).get ("p__d", "t") =
        some [1] := by
  have ht : (runScript emptyingEnv "p" (invokeProcedure emptyingEnv 1) "static" overOneRow).trace =
      [.statement] ++ .txn .begin_ overOneRow.world overOneRow.world :: (deleteSteps ++
        .txn .rollback withoutRows
          (withoutRows.restore ("p__d", "t") overOneRow.world.newName) :: _) := rfl
  refine ⟨by decide, rollback_restores emptyingEnv id emptyingEnv_storesIn id 1 "p" "static"
    overOneRow rfl ht rfl ?_ (by decide) rfl⟩
  have hs : ∀ w : Storage Nat, ChangesNew id overOneRow.world w w := fun w k hk => absurd rfl hk
  simp only [deleteSteps, forall_mem_cons, not_mem_nil, false_implies, implies_true, and_true]
  refine ⟨trivial, rfl, hs _, fun k hk => .inl ?_, hs _, trivial⟩
  obtain rfl : k = ("p__d", "t") := by
    by_contra hn
    exact hk (get_put_of_ne _ _ hn)
  exact ⟨by decide, by decide⟩

/-- **What a rollback does not undo**: in each of these runs it is executed, and the table stays
empty. -/
theorem rollback_loses :
    overOneRow.world.get ("p__d", "t") = some [1] ∧
      (["spellings", "truncate", "dynamic", "call", "handler"].map fun source =>
        let o := runScript emptyingEnv "p" (invokeProcedure emptyingEnv 1) source overOneRow
        (o.result.toOption.isSome, o.state.world.get ("p__d", "t"))) =
      replicate 5 (true, some []) := by
  decide

end Bqemulator
