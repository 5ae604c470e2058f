import Bqemulator.Scripting.Rules

/-!
# What scripts do to the world

A relation between the world before and after holds of every run of a script if it holds of every
effect the script asks for, of the backups it takes and of what is done with these at the end of a
transaction.
-/

namespace Bqemulator

open Comp

variable {σ : Type}

/-! ## Events of a run -/

mutual

def Event.All (G : Event σ → Prop) : Event σ → Prop
  | .called trace _ _ _ => allEvents G trace
  | e => G e

/-- Every event of a run and of the procedures it calls is in `G`. -/
def allEvents (G : Event σ → Prop) : List (Event σ) → Prop
  | [] => True
  | e :: rest => e.All G ∧ allEvents G rest

end

theorem allEvents_append {G : Event σ → Prop} {t t' : List (Event σ)} :
    allEvents G (t ++ t') ↔ allEvents G t ∧ allEvents G t' := by
  induction t with
  | nil => simp [allEvents]
  | cons e r ih => simp [allEvents, ih, and_assoc]

mutual

variable {G : Event σ → Prop}

theorem Event.all_of_forall (h : ∀ e, G e) : ∀ e : Event σ, e.All G
  | .called t _ _ _ => allEvents_of_forall h t
  | .statement | .leftFor | .effect _ _ _ | .txn _ _ _ | .backup _ _ _ _ => h _

theorem allEvents_of_forall (h : ∀ e, G e) :
    ∀ trace : List (Event σ), allEvents G trace
  | [] => trivial
  | e :: r => ⟨e.all_of_forall h, allEvents_of_forall h r⟩

end

mutual

variable {G G' : Event σ → Prop}

theorem Event.All.mono (h : ∀ e, G e → G' e) :
    ∀ {e : Event σ}, e.All G → e.All G'
  | .called _ _ _ _, ha => allEvents_mono h ha
  | .statement, ha => h _ ha
  | .leftFor, ha => h _ ha
  | .effect _ _ _, ha => h _ ha
  | .txn _ _ _, ha => h _ ha
  | .backup _ _ _ _, ha => h _ ha

theorem allEvents_mono (h : ∀ e, G e → G' e) :
    ∀ {trace : List (Event σ)}, allEvents G trace → allEvents G' trace
  | [], _ => trivial
  | _ :: _, ha => ⟨ha.1.mono h, allEvents_mono h ha.2⟩

end

/-! ## The rule -/

structure WorldRule (env : ScriptEnv σ) (G : Event σ → Prop) (A : String × String → Prop)
    (P : σ → σ → Prop) : Prop where
  refl : ∀ w, P w w
  trans : ∀ {w w' w''}, P w w' → P w' w'' → P w w''
  perform : ∀ e w, G (.effect e w (env.perform e w).2) → P w (env.perform e w).2
  backup : ∀ target name w w', env.backup target name w = some w' →
    G (.backup target name w w') → A target ∧ P w w'
  restore : ∀ target name w, A target → P w (env.restore target name w)
  dropBackup : ∀ name w, P w (env.dropBackup name w)

/-- The targets of an open transaction are of kind `A`. -/
def TxnOf (A : String × String → Prop) (c : Core σ) : Prop :=
  ∀ backups, c.activeTxn = some backups → ∀ b ∈ backups, A b.1

/-- What a run of events of kind `G` keeps: the kind of the targets, and the world to `P`. -/
def KeepsWorld (G : Event σ → Prop) (A : String × String → Prop) (P : σ → σ → Prop) (c : Core σ)
    (t : List (Event σ)) (c' : Core σ) : Prop :=
  allEvents G t → TxnOf A c → TxnOf A c' ∧ P c.world c'.world

namespace WorldRule

variable {env : ScriptEnv σ} {G : Event σ → Prop} {A : String × String → Prop} {P : σ → σ → Prop}
  (rule : WorldRule env G A P)

include rule

theorem sequential : Sequential (KeepsWorld G A P) where
  refl s := fun _ ht => ⟨ht, rule.refl _⟩
  trans h h' := by
    intro ha ht
    obtain ⟨hf, hs⟩ := allEvents_append.1 ha
    obtain ⟨ht', hw⟩ := h hf ht
    obtain ⟨ht'', hw'⟩ := h' hs ht'
    exact ⟨ht'', rule.trans hw hw'⟩

theorem dropAll (backups : List ((String × String) × String)) (w : σ) :
    P w (dropAll env backups w) := by
  induction backups generalizing w with
  | nil => exact rule.refl w
  | cons b r ih => exact rule.trans (rule.dropBackup b.2 w) (ih _)

theorem restoreAll {backups : List ((String × String) × String)} (h : ∀ b ∈ backups, A b.1)
    (w : σ) : P w (restoreAll env backups w) := by
  induction backups generalizing w with
  | nil => exact rule.refl w
  | cons b r ih =>
    refine rule.trans (rule.restore b.1 b.2 w (h b List.mem_cons_self)) (ih ?_ _)
    exact fun b' hb' => h b' (List.mem_cons_of_mem _ hb')

theorem closeTxn {c : TxnCause} {change : List ((String × String) × String) → σ → σ}
    (h : ∀ backups w, (∀ b ∈ backups, A b.1) → P w (change backups w)) :
    Respects (onCore (KeepsWorld G A P)) (closeTxn c change) := by
  intro s _ ht
  refine ⟨fun backups hn => (nomatch hn), ?_⟩
  simp only [Bqemulator.closeTxn]
  cases ho : s.activeTxn with
  | none => exact rule.refl _
  | some backups => exact h backups s.world (ht backups ho)

theorem attempt (e : Interp σ → Effect) :
    Respects (onCore (KeepsWorld G A P)) (attempt env e) :=
  fun s ha ht => ⟨ht, rule.perform (e s) s.world ha.1⟩

theorem snapshotTarget (target : String × String) :
    Respects (onCore (KeepsWorld G A P)) (snapshotTarget env target) := by
  intro s
  rcases snapshotTarget_cases env target s with ⟨h, -⟩ | ⟨backups, after, ho, -, hba, h⟩
  · rw [h]
    exact rule.sequential.refl _
  rw [h]
  intro ha ht
  obtain ⟨htg, hw⟩ := rule.backup _ _ _ _ hba ha.1
  refine ⟨fun b' ho' b hb => ?_, hw⟩
  cases ho'
  rcases List.mem_append.1 hb with hb | hb
  · exact ht backups ho b hb
  · obtain rfl := List.mem_singleton.1 hb
    exact htg

theorem coreRule : CoreRule env (KeepsWorld G A P) where
  seq := rule.sequential
  leftFor _ := fun _ ht => ⟨ht, rule.refl _⟩
  attempt e _ := rule.attempt e
  count s := by
    rw [countStatement]
    split
    · exact fun _ ht => ⟨ht, rule.refl _⟩
    · exact fun _ ht => ⟨ht, rule.refl _⟩
  beginTxn s := by
    intro _ ht
    refine ⟨fun backups ho b hb => ?_, rule.refl _⟩
    -- an open transaction stays as it is, and a new one has no backups
    cases ho
    cases ht' : s.activeTxn with
    | none => simp [ht'] at hb
    | some backups => exact ht backups ht' b (by simpa [ht'] using hb)
  dropTxn _ _ := rule.closeTxn fun backups w _ => rule.dropAll backups w
  restoreTxn _ _ := rule.closeTxn fun _ w h => rule.restoreAll h w
  execSqlStatement := respects_execSqlStatement (onCore_sequential rule.sequential) rule.attempt
    (fun _ _ _ ht => ⟨ht, rule.refl _⟩) rule.snapshotTarget
  called c t e c' h := by
    intro ha ht
    refine ⟨ht, (h ha.1 fun backups hn => ?_).2⟩
    cases hn

/-- A run whose events are in `G` keeps the world to `P`. -/
theorem runJobScript {d : Nat} {p source : String} {w : σ}
    (h : allEvents G (runJobScript env d p source w).trace) :
    P w (runJobScript env d p source w).state.world :=
  (rule.coreRule.runJobScript d p source w h fun _ hn => (nomatch hn)).2

end WorldRule

end Bqemulator
