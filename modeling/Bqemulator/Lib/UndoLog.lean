import Mathlib

/-!
# Undo by copies

A store is undone from copies taken before the first change of a cell. While a log is open, every
cell is copied or as it was; undoing the entries brings back the cells that there were. Cells
outside of the domain `D` hold copies.
-/

namespace UndoLog

open List

variable {κ V : Type}

/-- **The invariant of an open log**, over the store `base` in which it was opened. -/
structure Saved (D : κ → Prop) (base store : κ → Option V) (log : List (κ × κ)) : Prop where
  cells_nodup : (log.map Prod.fst).Nodup
  copies_nodup : (log.map Prod.snd).Nodup
  cell_mem : ∀ x ∈ log, D x.1
  copy_notMem : ∀ x ∈ log, ¬ D x.2
  copy_some : ∀ x ∈ log, store x.2 ≠ none
  copied : ∀ x ∈ log, base x.1 ≠ none → store x.2 = base x.1 ∧ store x.1 ≠ none
  untouched : ∀ k, D k → base k ≠ none → k ∉ log.map Prod.fst → store k = base k

variable {D : κ → Prop} {base store store' : κ → Option V} {log : List (κ × κ)}

/-- Opening a log. -/
theorem saved_nil (D : κ → Prop) (b : κ → Option V) : Saved D b b [] where
  cells_nodup := List.nodup_nil
  copies_nodup := List.nodup_nil
  cell_mem _ hx := by cases hx
  copy_notMem _ hx := by cases hx
  copy_some _ hx := by cases hx
  copied _ hx := by cases hx
  untouched _ _ _ _ := rfl

/-- A copy is taken, in a cell that was empty. -/
theorem Saved.save (h : Saved D base store log) {c copy : κ} (hce : D c)
    (hnw : ∀ x ∈ log, x.1 ≠ c) (hco : ¬ D copy) (hf : store copy = none)
    (hso : store c ≠ none) (hcp : store' copy = store c)
    (hs : ∀ k, k ≠ copy → store' k = store k) :
    Saved D base store' (log ++ [(c, copy)]) := by
  have ho : ∀ x ∈ log, x.2 ≠ copy := fun x hx hx2 => h.copy_some x hx (hx2 ▸ hf)
  have hcl : ∀ x ∈ log, x.1 ≠ copy := fun x hx hx1 => hco (hx1 ▸ h.cell_mem x hx)
  have hne : c ≠ copy := fun hc => hco (hc ▸ hce)
  have hn : c ∉ log.map Prod.fst := by
    simpa using fun b hb => hnw (c, b) hb rfl
  refine ⟨?_, ?_, ?_, ?_, ?_, ?_, ?_⟩
  · rw [map_append, nodup_append]
    refine ⟨h.cells_nodup, nodup_singleton _, fun a ha b hb => ?_⟩
    rw [map_singleton, mem_singleton] at hb
    intro hab
    rw [hab, hb] at ha
    exact hn ha
  · rw [map_append, nodup_append]
    refine ⟨h.copies_nodup, nodup_singleton _, fun a ha b hb => ?_⟩
    rw [map_singleton, mem_singleton] at hb
    obtain ⟨x, hx, rfl⟩ := mem_map.1 ha
    exact fun hab => ho x hx (hab.trans hb)
  · intro x hx
    rcases mem_append.1 hx with hx | hx
    · exact h.cell_mem x hx
    · obtain rfl := mem_singleton.1 hx
      exact hce
  · intro x hx
    rcases mem_append.1 hx with hx | hx
    · exact h.copy_notMem x hx
    · obtain rfl := mem_singleton.1 hx
      exact hco
  · intro x hx
    rcases mem_append.1 hx with hx | hx
    · rw [hs _ (ho x hx)]
      exact h.copy_some x hx
    · obtain rfl := mem_singleton.1 hx
      rw [hcp]
      exact hso
  · intro x hx hba
    rcases mem_append.1 hx with hx | hx
    · rw [hs _ (ho x hx), hs _ (hcl x hx)]
      exact h.copied x hx hba
    · obtain rfl := mem_singleton.1 hx
      rw [hcp, hs _ hne]
      exact ⟨h.untouched c hce hba hn, hso⟩
  · intro k hk hba hl
    rw [map_append, mem_append, not_or] at hl
    rw [hs k fun hkc => hco (hkc ▸ hk)]
    exact h.untouched k hk hba hl.1

/-- A change of copied cells, which stay filled, and of cells that the base does not have. -/
theorem Saved.change (h : Saved D base store log) (hc : ∀ k, store' k ≠ store k →
      (k ∈ log.map Prod.fst ∧ store' k ≠ none) ∨ (D k ∧ base k = none)) :
    Saved D base store' log := by
  have hco : ∀ x ∈ log, store' x.2 = store x.2 := by
    intro x hx
    by_contra hne
    rcases hc x.2 hne with ⟨hm, -⟩ | ⟨hD, -⟩
    · obtain ⟨y, hy, hyx⟩ := mem_map.1 hm
      exact h.copy_notMem x hx (hyx ▸ h.cell_mem y hy)
    · exact h.copy_notMem x hx hD
  refine ⟨h.cells_nodup, h.copies_nodup, h.cell_mem, h.copy_notMem, ?_, ?_, ?_⟩
  · intro x hx
    rw [hco x hx]
    exact h.copy_some x hx
  · intro x hx hb
    obtain ⟨hcd, hs⟩ := h.copied x hx hb
    refine ⟨(hco x hx).trans hcd, fun hn => ?_⟩
    by_cases hne : store' x.1 = store x.1
    · exact hs (hne ▸ hn)
    · rcases hc x.1 hne with ⟨-, hf⟩ | ⟨-, he⟩
      · exact hf hn
      · exact hb he
  · intro k hk hb hl
    by_contra hne
    rcases hc k (fun hsa => hne (hsa.trans (h.untouched k hk hb hl))) with
      ⟨hm, -⟩ | ⟨-, hn⟩
    · exact hl hm
    · exact hb hn

section Undo

variable {σ : Type} (get : σ → κ → Option V) (restore : κ × κ → σ → σ)
  (hframe : ∀ x s k, ¬ D x.2 → k ≠ x.1 → k ≠ x.2 → get (restore x s) k = get s k)
  (hrestore : ∀ x s, D x.1 → ¬ D x.2 → get s x.1 ≠ none → get s x.2 ≠ none →
    get (restore x s) x.1 = get s x.2)

include hframe hrestore

/-- One entry is undone: the log without it is open over the new store. -/
theorem Saved.undoHead {x : κ × κ} {s : σ} (h : Saved D base (get s) (x :: log)) :
    Saved D base (get (restore x s)) log := by
  have hcl := nodup_cons.1 h.cells_nodup
  have hco := nodup_cons.1 h.copies_nodup
  have hc : ∀ y ∈ log, get (restore x s) y.2 = get s y.2 := fun y hy =>
    hframe x s y.2 (h.copy_notMem x mem_cons_self)
      (fun hyx => h.copy_notMem y (mem_cons_of_mem _ hy) (hyx ▸ h.cell_mem x mem_cons_self))
      (fun hyx => hco.1 (mem_map.2 ⟨y, hy, hyx⟩))
  have hce : ∀ k, D k → k ≠ x.1 → get (restore x s) k = get s k := fun k hk hkx =>
    hframe x s k (h.copy_notMem x mem_cons_self) hkx
      fun hk2 => h.copy_notMem x mem_cons_self (hk2 ▸ hk)
  refine ⟨hcl.2, hco.2, fun y hy => h.cell_mem y (mem_cons_of_mem _ hy),
    fun y hy => h.copy_notMem y (mem_cons_of_mem _ hy), ?_, ?_, ?_⟩
  · intro y hy
    rw [hc y hy]
    exact h.copy_some y (mem_cons_of_mem _ hy)
  · intro y hy hb
    rw [hc y hy, hce y.1 (h.cell_mem y (mem_cons_of_mem _ hy))
      fun hyx => hcl.1 (mem_map.2 ⟨y, hy, hyx⟩)]
    exact h.copied y (mem_cons_of_mem _ hy) hb
  intro k hk hb hl
  by_cases hkx : k = x.1
  · subst hkx
    obtain ⟨hcd, hs⟩ := h.copied x mem_cons_self hb
    rw [hrestore x s hk (h.copy_notMem x mem_cons_self) hs (h.copy_some x mem_cons_self), hcd]
  · rw [hce k hk hkx]
    exact h.untouched k hk hb fun hm => (mem_cons.1 hm).elim hkx hl

/-- Undoing brings back the cells of the base. -/
theorem Saved.undo {k : κ} (hk : D k) (hb : base k ≠ none) {s : σ} (h : Saved D base (get s) log) :
    get (log.foldl (fun s x => restore x s) s) k = base k := by
  induction log generalizing s with
  | nil => exact h.untouched k hk hb not_mem_nil
  | cons x r ih => exact ih (h.undoHead get restore hframe hrestore)

end Undo

end UndoLog
