import Bqemulator.Scripting.Rules

/-!
# The statement quota

Each interpreter counts the statements it executes and fails on the one that exceeds the quota. A
`CALL` runs the procedure with an interpreter of its own, so the quota bounds every interpreter of a
run and not the run.
-/

namespace Bqemulator

open Comp

variable {σ : Type}

def Event.isStatement : Event σ → Bool
  | .statement => true
  | _ => false

/-- The runs of procedures among the events. -/
def Event.isCall : Event σ → Bool
  | .called _ _ _ _ => true
  | _ => false

/-- The statements that an interpreter executes itself. -/
def ownStatements (trace : List (Event σ)) : Nat :=
  trace.countP Event.isStatement

mutual

def Event.statements : Event σ → Nat
  | .statement => 1
  | .called trace _ _ _ => allStatements trace
  | _ => 0

/-- The statements of a run, with those of every procedure it calls. -/
def allStatements : List (Event σ) → Nat
  | [] => 0
  | e :: rest => e.statements + allStatements rest

end

theorem allStatements_eq_own : ∀ {trace : List (Event σ)}, (∀ e ∈ trace, e.isCall = false) →
    allStatements trace = ownStatements trace := by
  intro trace
  induction trace with
  | nil => exact fun _ => rfl
  | cons e r ih =>
    intro h
    have hr := ih fun e he => h e (List.mem_cons_of_mem _ he)
    rw [allStatements, hr, ownStatements, ownStatements, List.countP_cons]
    cases e with
    | called => cases h _ List.mem_cons_self
    | _ => simp [Event.statements, Event.isStatement, Nat.add_comm]

/-- What a run adds to the counter: at least the statements it executed, and these are at most what
the quota left. -/
def Metered (maxStatements : Nat) (c : Core σ) (t : List (Event σ)) (c' : Core σ) : Prop :=
  ownStatements t ≤ maxStatements - c.statementsExecuted ∧
    c.statementsExecuted + ownStatements t ≤ c'.statementsExecuted

theorem Metered.of_own {m : Nat} {c c' : Core σ} {t : List (Event σ)}
    (ht : ownStatements t = 0) (hc : c'.statementsExecuted = c.statementsExecuted) :
    Metered m c t c' := by
  rw [Metered, ht, hc]
  exact ⟨Nat.zero_le _, Nat.le_refl _⟩

theorem metered_sequential (m : Nat) :
    Sequential (Metered m : Core σ → List (Event σ) → Core σ → Prop) where
  refl _ := .of_own rfl rfl
  trans {s s' s'' t t'} h h' := by
    have ha : ownStatements (t ++ t') = ownStatements t + ownStatements t' :=
      List.countP_append
    unfold Metered at *
    omega

variable (env : ScriptEnv σ)

theorem metered_rule : CoreRule env (Metered env.maxStatements) where
  seq := metered_sequential _
  leftFor _ := .of_own rfl rfl
  attempt _ _ _ := .of_own rfl rfl
  count s := by
    rw [countStatement, onCore]
    split
    · exact ⟨Nat.zero_le _, Nat.le_succ _⟩
    · have ho : ownStatements [Event.statement (σ := σ)] = 1 := rfl
      refine ⟨?_, Nat.le_refl _⟩
      simp only [Interp.core]
      omega
  beginTxn _ := .of_own rfl rfl
  dropTxn _ _ _ := .of_own rfl rfl
  restoreTxn _ _ _ := .of_own rfl rfl
  execSqlStatement := respects_execSqlStatement (onCore_sequential (metered_sequential _))
    (fun _ _ => .of_own rfl rfl) (fun _ _ => .of_own rfl rfl) fun target s => by
      rcases snapshotTarget_cases env target s with ⟨h, -⟩ | ⟨b, after, -, -, -, h⟩
      · rw [h]
        exact .of_own rfl rfl
      · rw [h]
        exact .of_own rfl rfl
  called _ _ _ _ _ := .of_own rfl rfl

/-- No interpreter executes more statements than the quota allows. -/
theorem ownStatements_le (d : Nat) (p source : String) (w : σ) :
    ownStatements (runJobScript env d p source w).trace ≤ env.maxStatements :=
  ((metered_rule env).runJobScript d p source w).1

/-- **The quota of a run** in which no procedure is called. -/
theorem allStatements_le (depth : Nat) (project source : String) (w : σ)
    (h : ∀ e ∈ (runJobScript env depth project source w).trace, e.isCall = false) :
    allStatements (runJobScript env depth project source w).trace ≤ env.maxStatements := by
  rw [allStatements_eq_own h]
  exact ownStatements_le env depth project source w

def twiceScripts : String → Except DomainError (List Stmt)
  | "CALL d.twice()" => .ok [.call "d.twice" []]
  | _ => .ok [.sql "SELECT 1", .sql "SELECT 2"]

def twiceEnv : ScriptEnv Unit :=
  .blank 2 twiceScripts [(⟨"p", "d", "twice"⟩,
    { projectId := "p", routineId := "twice", arguments := [], definitionBody := "body" })]

/-- The two statements by themselves are within a quota of two. -/
theorem allStatements_le_body :
    allStatements (runJobScript twiceEnv 1 "p" "body" ()).trace ≤ twiceEnv.maxStatements :=
  allStatements_le twiceEnv 1 "p" "body" () (by decide)

/-- **A call of them** is not: the run executes three statements, and no error ends it. -/
theorem allStatements_exceeds :
    (runJobScript twiceEnv 1 "p" "CALL d.twice()" ()).result.toOption.isSome ∧
    twiceEnv.maxStatements < allStatements
      (runJobScript twiceEnv 1 "p" "CALL d.twice()" ()).trace :=
  ⟨by decide, by decide⟩

end Bqemulator
