import Bqemulator.Versioning.Snapshots

/-!
# Time travel over whole histories

A history interleaves recorded changes of tables, runs of the garbage collector and clock advances.
Beside the world it keeps, for one table, the log of its rows after each recorded change: a target
in the retention window is to be answered by the rows in force then.
-/

namespace Bqemulator

open Timeline Except List Option

variable {Row : Type}

structure Change (Row : Type) where
  time : Time
  rows : List Row
deriving DecidableEq

/-- What happens in a history: new rows with a record of the change, a garbage collection, or time
passes. -/
inductive HistoryStep (Row : Type) where
  | change (id : TableId) (rows : List Row) (hex : String)
  | purge
  | advance (elapsed : Nat)

/-- The world, and the log of the table `T`. -/
structure History (Row : Type) where
  world : World Row
  log : List (Change Row) := []

variable {rows : List Row} {a : HistoryStep Row}

namespace History

variable (T : TableId)

def step (h : History Row) : HistoryStep Row → Except DomainError (History Row)
  | .change id rows hex =>
    match { h.world with storage := h.world.storage.put id.key rows }.recordChange id hex with
    | .error e => .error e
    | .ok w => .ok ⟨w, if id = T then h.log ++ [⟨h.world.now, rows⟩] else h.log⟩
  | .purge => .ok { h with world := h.world.purgeExpired }
  | .advance elapsed => .ok { h with world := { h.world with now := h.world.now + elapsed } }

/-- **Every target of the window, from the first change on, is answered right.** -/
def Resolves (h : History Row) : Prop :=
  ∀ target, h.world.now - h.world.retentionDays * day ≤ target → target ≤ h.world.now →
    (∃ c ∈ h.log, c.time ≤ target) →
    ∃ s c, resolveTimeTravel h.world.catalog h.world.now h.world.retentionDays T target
        = .ok (some s) ∧
      asOf Change.time h.log target = some c ∧
      h.world.storage.get (s.duckdbSchema, s.duckdbTable) = some c.rows

/-- The steps that keep lookups right: changes of `T` at one instant leave the same rows, and the
garbage collector finds no expired snapshot of `T`. -/
def Keeps (h : History Row) : HistoryStep Row → Prop
  | .change id rows _ => id = T → ∀ c ∈ h.log, c.time = h.world.now → c.rows = rows
  | .purge => ∀ s ∈ h.world.catalog.snapshots, s.source = T → s.isExpired h.world.now = false
  | .advance _ => True

def withRows (w : World Row) (id : TableId) (rows : List Row) : World Row :=
  { w with storage := w.storage.put id.key rows }

theorem step_change_cases {T id : TableId} {hex : String} {h h' : History Row}
    (hs : h.step T (.change id rows hex) = .ok h') :
    ∃ w', h' = ⟨{ w' with events := w'.events ++ [id] },
        if id = T then h.log ++ [⟨h.world.now, rows⟩] else h.log⟩ ∧
      ((h.world.catalog.getTable id = none ∧ w' = withRows h.world id rows) ∨
        (∀ t ∈ h.world.catalog.snapshots, t.snapshotId ≠ newSnapshotId h.world.now hex) ∧
        w' = (withRows h.world id rows).addSnapshot
          (snapshotMeta h.world.now h.world.retentionDays id .auto hex) rows) := by
  simp only [step, World.recordChange] at hs
  cases hc : (withRows h.world id rows).capture id .auto hex with
  | error e =>
    rw [withRows] at hc
    simp [hc] at hs
  | ok r =>
    obtain ⟨w', s⟩ := r
    have hc' := hc
    rw [withRows] at hc'
    simp only [hc', ok.injEq] at hs
    refine ⟨w', hs.symm, ?_⟩
    rcases World.capture_cases hc with ⟨hn, rfl, -⟩ | ⟨m, r', -, hro, -, hi, rfl, -⟩
    · exact .inl ⟨hn, rfl⟩
    · obtain rfl : rows = r' := by simpa [withRows] using hro
      exact .inr ⟨hi, rfl⟩

end History

/-! ## The snapshots are the log -/

namespace World

def snapshotsOf (w : World Row) (T : TableId) : List SnapshotMeta :=
  w.catalog.snapshots.filter fun s => s.source = T

def changeOf (w : World Row) (s : SnapshotMeta) : Change Row :=
  ⟨s.snapshotTime, (w.storage.get (s.duckdbSchema, s.duckdbTable)).getD []⟩

theorem mem_snapshotsOf {w : World Row} {T : TableId} {s : SnapshotMeta} :
    s ∈ w.snapshotsOf T ↔ s ∈ w.catalog.snapshots ∧ s.source = T := by
  simp [snapshotsOf]

end World

open World

/-- Every recorded change of `T` has its snapshot: each is stored in a table of its own, and those
of `T` are the entries of the log, in order of time, with entries of one instant agreeing. -/
structure Recorded (T : TableId) (h : History Row) : Prop where
  known : ∃ m, h.world.catalog.getTable T = some m
  own : ∀ s ∈ h.world.catalog.snapshots,
    s.duckdbSchema = snapshotsSchema ∧ s.duckdbTable = s.snapshotId
  stored : ∀ s ∈ h.world.catalog.snapshots, ∃ rows,
    h.world.storage.get (s.duckdbSchema, s.duckdbTable) = some rows
  nodup : (h.world.catalog.snapshots.map SnapshotMeta.snapshotId).Nodup
  auto : ∀ s ∈ h.world.snapshotsOf T, s.kind = .auto ∧
    s.expiresAt = some (s.snapshotTime + h.world.retentionDays * day)
  entries : h.log = (h.world.snapshotsOf T).map h.world.changeOf
  sorted : h.log.Pairwise fun a b => a.time ≤ b.time
  past : ∀ c ∈ h.log, c.time ≤ h.world.now
  agree : ∀ a ∈ h.log, ∀ b ∈ h.log, a.time = b.time → a.rows = b.rows

namespace Recorded

variable {T : TableId} {h : History Row} {s : SnapshotMeta}

section

variable (hr : Recorded T h)

include hr

theorem storage_get (hs : s ∈ h.world.snapshotsOf T) :
    h.world.storage.get (s.duckdbSchema, s.duckdbTable) = some (h.world.changeOf s).rows := by
  obtain ⟨rows, hro⟩ := hr.stored s (mem_snapshotsOf.1 hs).1
  simp [changeOf, hro]

theorem changeOf_mem (hs : s ∈ h.world.snapshotsOf T) : h.world.changeOf s ∈ h.log :=
  hr.entries ▸ mem_map_of_mem hs

theorem listSnapshotsForTable_eq :
    h.world.catalog.listSnapshotsForTable T = h.world.snapshotsOf T := by
  have hs := hr.sorted
  rw [hr.entries, pairwise_map] at hs
  exact List.Pairwise.insertionSort_eq hs

/-- While the snapshots are the log, lookups answer right. -/
theorem resolves : h.Resolves T := by
  intro target hlo hh hf
  obtain ⟨c, hc⟩ := exists_asOf hf
  set snaps := h.world.snapshotsOf T with hsn
  set e := snaps.filter fun s => s.snapshotTime ≤ target with he
  -- the log entries in force correspond to the eligible snapshots, in order
  have hlg : h.log.filter (fun c => c.time ≤ target) = e.map h.world.changeOf := by
    rw [hr.entries, List.filter_map]
    rfl
  have hl : e.getLast?.map h.world.changeOf = some c := by
    rw [← hc, asOf, hlg, List.getLast?_map]
  have hsu : ∀ s ∈ e, s ∈ snaps := fun s hs => (List.mem_filter.1 hs).1
  have hso : e.Pairwise fun a b => a.snapshotTime ≤ b.snapshotTime := by
    have := hr.sorted
    rw [hr.entries, List.pairwise_map] at this
    exact this.filter _
  have hv := map_argmax_eq (fun s => (h.world.changeOf s).rows) hso
    fun a ha b hb => hr.agree _ (hr.changeOf_mem (hsu a ha)) _ (hr.changeOf_mem (hsu b hb))
  cases hm : e.argmax SnapshotMeta.snapshotTime with
  | none =>
    rw [List.argmax_eq_none] at hm
    rw [hm] at hl
    cases hl
  | some s =>
    have hs : s ∈ snaps := hsu s (List.argmax_mem hm)
    refine ⟨s, c, ?_, hc, ?_⟩
    · have hn : snaps.isEmpty = false := by
        rw [Bool.eq_false_iff, ne_eq, List.isEmpty_iff]
        exact List.ne_nil_of_mem hs
      simp only [resolveTimeTravel, hr.listSnapshotsForTable_eq, not_lt.2 hh, not_lt.2 hlo,
        ← hsn, hn, ← he, hm, if_false, Bool.false_eq_true]
    · rw [hr.storage_get hs]
      rw [hm] at hv
      obtain ⟨b, hb, hbc⟩ := Option.map_eq_some_iff.1 hl
      rw [hb, Option.map_some, Option.map_some, hbc] at hv
      exact hv

end

/-! ## What keeps the snapshots the log -/

variable {h' : History Row}

theorem frame (hr : Recorded T h) (hca : h'.world.catalog = h.world.catalog)
    (hd : h'.world.retentionDays = h.world.retentionDays) (hn : h.world.now ≤ h'.world.now)
    (hl : h'.log = h.log) (hg : ∀ name, h'.world.storage.get (snapshotsSchema, name) =
      h.world.storage.get (snapshotsSchema, name)) : Recorded T h' := by
  have hsn : h'.world.snapshotsOf T = h.world.snapshotsOf T := by rw [snapshotsOf, hca]; rfl
  have hk : ∀ s ∈ h.world.catalog.snapshots,
      h'.world.storage.get (s.duckdbSchema, s.duckdbTable) =
        h.world.storage.get (s.duckdbSchema, s.duckdbTable) := by
    intro s hs
    rw [(hr.own s hs).1]
    exact hg _
  refine ⟨by rw [hca]; exact hr.known, by rw [hca]; exact hr.own, ?_, by rw [hca]; exact hr.nodup,
    by rw [hsn, hd]; exact hr.auto, ?_, by rw [hl]; exact hr.sorted, ?_,
    by rw [hl]; exact hr.agree⟩
  · rw [hca]
    intro s hs
    rw [hk s hs]
    exact hr.stored s hs
  · rw [hl, hr.entries, hsn]
    refine map_congr_left fun s hs => ?_
    rw [changeOf, changeOf, hk s (mem_snapshotsOf.1 hs).1]
  · rw [hl]
    exact fun c hc => (hr.past c hc).trans hn

theorem putUser (hr : Recorded T h) (id : TableId) (rows : List Row) :
    Recorded T { h with world := History.withRows h.world id rows } :=
  hr.frame rfl rfl le_rfl rfl fun name => Storage.get_put_of_ne _ _ (key_ne_snapshot id name).symm

section AddSnapshot

variable {log : List (Change Row)}

theorem changeOf_addSnapshot (rows : List Row) (hr : Recorded T h)
    (hs : s.duckdbSchema = snapshotsSchema ∧ s.duckdbTable = s.snapshotId)
    (hi : ∀ t ∈ h.world.catalog.snapshots, t.snapshotId ≠ s.snapshotId) :
    (∀ t ∈ h.world.catalog.snapshots,
      (h.world.addSnapshot s rows).storage.get (t.duckdbSchema, t.duckdbTable) =
        h.world.storage.get (t.duckdbSchema, t.duckdbTable)) ∧
    (h.world.addSnapshot s rows).storage.get (s.duckdbSchema, s.duckdbTable) = some rows := by
  refine ⟨fun t ht => Storage.get_put_of_ne _ _ fun hk => ?_, Storage.get_put_self _ _ _⟩
  -- a key shared with the new snapshot would be a shared id
  rw [(hr.own t ht).2, hs.2] at hk
  exact hi t ht (Prod.mk.inj hk).2

theorem addSnapshot (hr : Recorded T h)
    (hs : s.duckdbSchema = snapshotsSchema ∧ s.duckdbTable = s.snapshotId)
    (hi : ∀ t ∈ h.world.catalog.snapshots, t.snapshotId ≠ s.snapshotId)
    (hau : s.source = T → s.kind = .auto ∧
      s.expiresAt = some (s.snapshotTime + h.world.retentionDays * day))
    (hl : log = h.log ++ if s.source = T then [⟨s.snapshotTime, rows⟩] else [])
    (hti : s.snapshotTime = h.world.now)
    (hag : s.source = T → ∀ c ∈ h.log, c.time = h.world.now → c.rows = rows) :
    Recorded T ⟨h.world.addSnapshot s rows, log⟩ := by
  obtain ⟨ho, hn⟩ := changeOf_addSnapshot rows hr hs hi
  have hsn : (h.world.addSnapshot s rows).snapshotsOf T =
      h.world.snapshotsOf T ++ if s.source = T then [s] else [] := by
    by_cases hT : s.source = T <;> simp [snapshotsOf, World.addSnapshot, hT]
  have hm : (h.world.snapshotsOf T).map (h.world.addSnapshot s rows).changeOf = h.log := by
    rw [hr.entries]
    refine map_congr_left fun t ht => ?_
    rw [changeOf, changeOf, ho t (mem_snapshotsOf.1 ht).1]
  have hme : ∀ t, t ∈ (h.world.addSnapshot s rows).catalog.snapshots ↔
      t ∈ h.world.catalog.snapshots ∨ t = s := by
    simp [World.addSnapshot]
  have hmg : ∀ c ∈ log, c ∈ h.log ∨ s.source = T ∧ c = ⟨s.snapshotTime, rows⟩ := by
    intro c hc
    rw [hl, mem_append] at hc
    split at hc
    · exact hc.imp_right fun hc => ⟨‹_›, mem_singleton.1 hc⟩
    · exact .inl (hc.resolve_right (by simp))
  refine ⟨hr.known, ?_, ?_, ?_, ?_, ?_, ?_, ?_, ?_⟩
  · intro t ht
    rcases (hme t).1 ht with ht | rfl
    · exact hr.own t ht
    · exact hs
  · intro t ht
    rcases (hme t).1 ht with ht | rfl
    · rw [ho t ht]; exact hr.stored t ht
    · exact ⟨rows, hn⟩
  · show ((h.world.catalog.snapshots ++ [s]).map SnapshotMeta.snapshotId).Nodup
    rw [map_append, map_singleton, ← concat_eq_append]
    refine hr.nodup.concat fun hme => ?_
    obtain ⟨t, ht, heq⟩ := mem_map.1 hme
    exact hi t ht heq
  · intro t ht
    rw [hsn, mem_append] at ht
    rcases ht with ht | ht
    · exact hr.auto t ht
    · split at ht
      · rw [mem_singleton.1 ht]; exact hau ‹_›
      · cases ht
  · rw [hl, hsn, map_append, hm]
    split
    · simp [changeOf, hn]
    · rfl
  · rw [hl, pairwise_append]
    refine ⟨hr.sorted, by split <;> simp, fun a ha b hb => ?_⟩
    split at hb
    · rw [mem_singleton.1 hb]
      exact (hr.past a ha).trans hti.ge
    · cases hb
  · intro c hc
    rcases hmg c hc with hc | ⟨-, rfl⟩
    · exact hr.past c hc
    · exact hti.le
  · -- two entries of one instant: both old, both new, or one of each
    intro a ha b hb hab
    rcases hmg a ha with ha | ⟨hT, rfl⟩ <;> rcases hmg b hb with hb | ⟨hT, rfl⟩
    · exact hr.agree a ha b hb hab
    · exact hag hT a ha (hab.trans hti)
    · exact (hag hT b hb (hab.symm.trans hti)).symm
    · rfl

end AddSnapshot

section

variable (hr : Recorded T h)

include hr

theorem purge
    (hke : ∀ s ∈ h.world.catalog.snapshots, s.source = T → s.isExpired h.world.now = false) :
    Recorded T { h with world := h.world.purgeExpired } := by
  obtain ⟨hn, hd, hta⟩ := foldl_dropSnapshot_frame h.world
    (h.world.catalog.listAllSnapshots.filter (SnapshotMeta.isExpired h.world.now))
  have hsn := foldl_dropSnapshot_snapshots h.world
  have hme : ∀ t, t ∈ h.world.purgeExpired.catalog.snapshots ↔ t ∈ h.world.catalog.snapshots ∧
      ∀ e ∈ h.world.catalog.snapshots, e.isExpired h.world.now → t.snapshotId ≠ e.snapshotId := by
    intro t
    rw [purgeExpired, hsn, List.mem_filter, decide_eq_true_eq]
    simp only [mem_expired, and_imp]
  have hg : ∀ t ∈ h.world.purgeExpired.catalog.snapshots,
      h.world.purgeExpired.storage.get (t.duckdbSchema, t.duckdbTable) =
        h.world.storage.get (t.duckdbSchema, t.duckdbTable) := by
    intro t ht
    obtain ⟨ht, hne⟩ := (hme t).1 ht
    refine foldl_dropSnapshot_get fun e he hk => ?_
    obtain ⟨he, hep⟩ := mem_expired.1 he
    rw [(hr.own t ht).2, (hr.own e he).2] at hk
    exact hne e he hep (Prod.mk.inj hk).2
  -- ids are unique, so no snapshot of `T` shares one with an expired snapshot
  have hss : h.world.purgeExpired.snapshotsOf T = h.world.snapshotsOf T := by
    rw [snapshotsOf, purgeExpired, hsn, snapshotsOf, List.filter_filter]
    refine List.filter_congr fun s hs => ?_
    simp only [Bool.and_eq_left_iff_imp, decide_eq_true_eq]
    intro hT e he hi
    obtain ⟨he, hep⟩ := mem_expired.1 he
    obtain rfl := List.inj_on_of_nodup_map hr.nodup hs he hi
    rw [hke s hs hT] at hep
    cases hep
  refine ⟨?_, fun t ht => hr.own t ((hme t).1 ht).1, ?_, ?_, ?_, ?_, hr.sorted, ?_, hr.agree⟩
  · obtain ⟨m, hm⟩ := hr.known
    refine ⟨m, ?_⟩
    rw [← hm, Catalog.getTable, purgeExpired, hta]
    rfl
  · intro t ht
    rw [hg t ht]
    exact hr.stored t ((hme t).1 ht).1
  · show (h.world.purgeExpired.catalog.snapshots.map SnapshotMeta.snapshotId).Nodup
    rw [purgeExpired, hsn]
    exact hr.nodup.sublist (List.filter_sublist.map _)
  · rw [hss]
    exact fun t ht => by rw [purgeExpired, hd]; exact hr.auto t ht
  · rw [hss]
    refine hr.entries.trans (List.map_congr_left fun t ht => ?_)
    rw [← hss, mem_snapshotsOf] at ht
    rw [changeOf, changeOf, hg t ht.1]
  · intro c hc
    rw [purgeExpired, hn]
    exact hr.past c hc

theorem step (hk : h.Keeps T a) (hs : h.step T a = .ok h') : Recorded T h' := by
  cases a with
  | advance =>
    obtain rfl : _ = h' := ok.inj hs
    exact hr.frame rfl rfl (Int.le_add_of_nonneg_right (Int.natCast_nonneg _)) rfl fun _ => rfl
  | purge =>
    obtain rfl : _ = h' := ok.inj hs
    exact hr.purge hk
  | change id rows hex =>
    have hp := hr.putUser id rows
    obtain ⟨w', rfl, ⟨hn, rfl⟩ | ⟨hi, rfl⟩⟩ := History.step_change_cases hs
    · -- an unknown table has no snapshot, and `T` is known
      obtain ⟨m, hm⟩ := hr.known
      have hne : id ≠ T := by
        rintro rfl
        exact absurd (hn.symm.trans hm) (by simp)
      rw [if_neg hne]
      exact hp.frame rfl rfl le_rfl rfl fun _ => rfl
    · refine (hp.addSnapshot (s := snapshotMeta _ _ id .auto hex) ⟨rfl, rfl⟩ hi
        (fun _ => ⟨rfl, rfl⟩) rfl rfl (fun hT => hk hT)).frame rfl rfl le_rfl ?_ fun _ => rfl
      by_cases hT : id = T <;> simp [hT, snapshotMeta]

/-! ## Only those steps do -/

theorem rows_eq_of_resolves {hex : String}
    (hst : h.step T (.change T rows hex) = .ok h') (hre : h'.Resolves T) {c : Change Row}
    (hc : c ∈ h.log) (hn : c.time = h.world.now) : c.rows = rows := by
  have hp := hr.putUser T rows
  obtain ⟨w', rfl, ⟨hno, -⟩ | ⟨hi, rfl⟩⟩ := History.step_change_cases hst
  · obtain ⟨m, hm⟩ := hr.known
    exact absurd (hno.symm.trans hm) (by simp)
  set n := snapshotMeta h.world.now h.world.retentionDays T .auto hex with hne
  obtain ⟨ho, -⟩ := changeOf_addSnapshot rows hp (s := n) ⟨rfl, rfl⟩ hi
  obtain ⟨s, c', hs, hc', hg⟩ := hre h.world.now
    (Int.sub_le_self _ (Int.mul_nonneg (Int.natCast_nonneg _) (by decide))) le_rfl
    ⟨⟨h.world.now, rows⟩, by simp, le_rfl⟩
  rw [if_pos rfl] at hc'
  obtain rfl : _ = c' := some.inj ((asOf_concat le_rfl).symm.trans hc')
  -- the snapshots of `T` are the old ones and the new one, in order and none in the future
  have hpa : ∀ s ∈ h.world.snapshotsOf T, s.snapshotTime ≤ h.world.now := fun s hs =>
    hr.past _ (hr.changeOf_mem hs)
  have hl : ((World.addSnapshot (History.withRows h.world T rows) n rows).catalog
      |>.listSnapshotsForTable T) = h.world.snapshotsOf T ++ [n] := by
    have hf : (h.world.catalog.snapshots ++ [n]).filter (fun s => s.source = T) =
        h.world.snapshotsOf T ++ [n] := by
      simp [snapshotsOf, hne, snapshotMeta]
    have hsr := hr.sorted
    rw [hr.entries, pairwise_map] at hsr
    refine (congrArg _ hf).trans (List.Pairwise.insertionSort_eq ?_)
    refine pairwise_append.2 ⟨hsr, pairwise_singleton _ _, fun a ha b hb => ?_⟩
    rw [mem_singleton.1 hb]
    exact hpa a ha
  have hma := argmax_of_resolveTimeTravel hs
  rw [hl, filter_eq_self.2] at hma
  · -- an old snapshot of this instant is there, so the lookup selects an old one
    have hc' : c ∈ (h.world.snapshotsOf T).map (History.withRows h.world T rows).changeOf :=
      hp.entries ▸ hc
    obtain ⟨b, hb, rfl⟩ := mem_map.1 hc'
    rw [argmax_concat_of_le hb (by exact hn.ge)] at hma
    have hso := argmax_mem hma
    have ht : s.snapshotTime = h.world.now :=
      le_antisymm (hpa s hso) (hn.ge.trans (le_of_mem_argmax hb hma))
    have hro := hp.agree _ (hp.changeOf_mem hb) _ (hp.changeOf_mem hso)
      (hn.trans ht.symm)
    rw [hro]
    exact some.inj ((hp.storage_get hso).symm.trans
      ((ho s (mem_snapshotsOf.1 hso).1).symm.trans hg))
  · intro s hs
    rcases mem_append.1 hs with hs | hs
    · exact decide_eq_true (hpa s hs)
    · rw [mem_singleton.1 hs]
      exact decide_eq_true le_rfl

theorem isExpired_of_resolves (hre : History.Resolves T { h with world := h.world.purgeExpired })
    (hs : s ∈ h.world.catalog.snapshots) (hT : s.source = T) : s.isExpired h.world.now = false := by
  obtain ⟨hn, hd, -⟩ := foldl_dropSnapshot_frame h.world
    (h.world.catalog.listAllSnapshots.filter (SnapshotMeta.isExpired h.world.now))
  have hl : ∀ t ∈ h.world.snapshotsOf T, t.isExpired h.world.now = true ↔
      t.snapshotTime ≤ h.world.now - h.world.retentionDays * day := by
    intro t ht
    obtain ⟨hki, he⟩ := hr.auto t ht
    simp only [SnapshotMeta.isExpired, hki, he, any_some, decide_true, Bool.true_and,
      decide_eq_true_eq]
    exact ⟨Int.le_sub_right_of_add_le, Int.add_le_of_le_sub_right⟩
  by_contra he
  have hs' := mem_snapshotsOf.2 ⟨hs, hT⟩
  have hti := (hl s hs').1 (by simpa using he)
  obtain ⟨t, c, ht, -, -⟩ := hre (h.world.now - h.world.retentionDays * day)
    (by rw [purgeExpired, hn, hd])
    (by
      rw [purgeExpired, hn]
      exact Int.sub_le_self _ (Int.mul_nonneg (Int.natCast_nonneg _) (by decide)))
    ⟨h.world.changeOf s, hr.changeOf_mem hs', hti⟩
  -- the snapshot found is not after the start of the window, so it had expired
  obtain ⟨hm, hsr, hle⟩ := mem_of_resolveTimeTravel ht
  obtain ⟨hm, hk⟩ := mem_snapshots_purgeExpired hm
  rw [(hl t (mem_snapshotsOf.2 ⟨hm, hsr⟩)).2 hle] at hk
  cases hk

theorem keeps_of_resolves (hst : h.step T a = .ok h') (hre : h'.Resolves T) : h.Keeps T a := by
  cases a with
  | advance => trivial
  | purge =>
    obtain rfl : _ = h' := ok.inj hst
    exact fun s hs hT => hr.isExpired_of_resolves hre hs hT
  | change =>
    rintro rfl c hc hn
    exact hr.rows_eq_of_resolves hst hre hc hn

end

end Recorded

theorem recorded_initial {T : TableId} {w : World Row} (hT : ∃ m, w.catalog.getTable T = some m)
    (hw : w.catalog.snapshots = []) : Recorded T ⟨w, []⟩ := by
  have hs : w.snapshotsOf T = [] := by simp [snapshotsOf, hw]
  exact ⟨hT, by simp [hw], by simp [hw], by simp [hw], by simp [hs], by simp [hs],
    .nil, by simp, by simp⟩

/-- **Time travel over a history**: lookups of `T` answer right in every state of exactly the
histories in which changes of `T` at one instant leave the same rows and no snapshot of `T` has
expired when the garbage collector runs. -/
theorem resolves_along_iff (w : World Row) (T : TableId)
    (hT : ∃ m, w.catalog.getTable T = some m) (hw : w.catalog.snapshots = [])
    (steps : List (HistoryStep Row)) :
    Run.Always (History.step T) (History.Resolves T) ⟨w, []⟩ steps ↔
      Run.EachStep (History.step T) (History.Keeps T) ⟨w, []⟩ steps :=
  Run.always_iff_eachStep (fun _ hr => hr.resolves) (fun _ _ _ hr hk hs => hr.step hk hs)
    (fun _ _ _ hr hs hre => hr.keeps_of_resolves hs hre) (recorded_initial hT hw)

def oneTable : World Nat where
  now := 0
  retentionDays := 1
  catalog := { tables := [{ id := ⟨"p", "d", "t"⟩ }] }
  storage := {}

/-- Two changes a second apart, with a run of the collector between them, meet the condition. -/
theorem resolves_along_two_changes :
    Run.Always (History.step ⟨"p", "d", "t"⟩) (History.Resolves ⟨"p", "d", "t"⟩) ⟨oneTable, []⟩
      [.change ⟨"p", "d", "t"⟩ [1] "a", .purge, .advance 1000000,
        .change ⟨"p", "d", "t"⟩ [1, 2] "b"] := by
  refine (resolves_along_iff oneTable ⟨"p", "d", "t"⟩ ⟨_, rfl⟩ rfl _).2 ?_
  intro h₁ e₁
  obtain rfl : _ = h₁ := ok.inj e₁
  refine ⟨fun _ => by simp, fun h₂ e₂ => ?_⟩
  obtain rfl : _ = h₂ := ok.inj e₂
  refine ⟨?_, fun h₃ e₃ => ?_⟩
  · intro s hs _
    have hs' : s ∈ [snapshotMeta 0 1 ⟨"p", "d", "t"⟩ .auto "a"] := hs
    rw [mem_singleton.1 hs']
    rfl
  obtain rfl : _ = h₃ := ok.inj e₃
  refine ⟨trivial, fun h₄ e₄ => ⟨fun _ c hc hn => ?_, trivial⟩⟩
  have hc' : c ∈ [(⟨0, [1]⟩ : Change Nat)] := hc
  rw [mem_singleton.1 hc'] at hn
  exact absurd hn (by decide)

/-- Two changes half a day apart, and a garbage collection a day and a fifth after the first: its
rows were current for another third of a day of the window, and no snapshot answers for them. -/
theorem purge_loses_state :
    ¬ Run.Always (History.step ⟨"p", "d", "t"⟩) (History.Resolves ⟨"p", "d", "t"⟩) ⟨oneTable, []⟩
      [.change ⟨"p", "d", "t"⟩ [1] "a", .advance 43200000000, .change ⟨"p", "d", "t"⟩ [2] "b",
        .advance 60480000000, .purge] := by
  intro h
  have hl := ((((h.2 _ rfl).2 _ rfl).2 _ rfl).2 _ rfl).2 _ rfl
  obtain ⟨s, c, hs, -, -⟩ :=
    hl 25920000000 (by decide) (by decide) ⟨⟨0, [1]⟩, by decide, by decide⟩
  have hn : (.error (.outOfRange ("FOR SYSTEM_TIME AS OF is before the table's first " ++
      "captured state; no snapshot is available")) :
        Except DomainError (Option SnapshotMeta)) = .ok (some s) := hs
  cases hn

/-! ## What holds in every history -/

/-- Every snapshot of `T` holds the rows of a change at its time. -/
structure Faithful (T : TableId) (h : History Row) : Prop where
  own : ∀ s ∈ h.world.catalog.snapshots,
    s.duckdbSchema = snapshotsSchema ∧ s.duckdbTable = s.snapshotId
  held : ∀ s ∈ h.world.catalog.snapshots, s.source = T → ∃ c ∈ h.log, c.time = s.snapshotTime ∧
    h.world.storage.get (snapshotsSchema, s.snapshotId) = some c.rows

theorem Faithful.step {T : TableId} {h h' : History Row} {a : HistoryStep Row} (hf : Faithful T h)
    (hs : h.step T a = .ok h') : Faithful T h' := by
  cases a with
  | change id rows hex =>
    obtain ⟨w, rfl, hw⟩ := History.step_change_cases hs
    -- the rows of the table are not in the schema of the snapshots
    have hk (s : SnapshotMeta) (hm : s ∈ h.world.catalog.snapshots) (hT : s.source = T) :
        ∃ c ∈ (if id = T then h.log ++ [⟨h.world.now, rows⟩] else h.log), c.time = s.snapshotTime ∧
          (h.world.storage.put id.key rows).get (snapshotsSchema, s.snapshotId) = some c.rows := by
      obtain ⟨c, hc, ht, hg⟩ := hf.held s hm hT
      refine ⟨c, ?_, ht, (Storage.get_put_of_ne _ _ (key_ne_snapshot id _).symm).trans hg⟩
      split
      · exact mem_append_left _ hc
      · exact hc
    rcases hw with ⟨-, rfl⟩ | ⟨hn, rfl⟩
    · exact ⟨hf.own, hk⟩
    refine ⟨fun s hm => ?_, fun s hm hT => ?_⟩
    · rcases mem_append.1 hm with hm | hm
      · exact hf.own s hm
      · cases mem_singleton.1 hm
        exact ⟨rfl, rfl⟩
    · rcases mem_append.1 hm with hm | hm
      · obtain ⟨c, hc, ht, hg⟩ := hk s hm hT
        exact ⟨c, hc, ht,
          (Storage.get_put_of_ne _ _ fun he => hn s hm (congrArg Prod.snd he)).trans hg⟩
      · cases mem_singleton.1 hm
        exact ⟨⟨h.world.now, rows⟩, by simp [show id = T from hT], rfl, Storage.get_put_self _ _ _⟩
  | purge =>
    cases hs
    refine ⟨fun s hm => hf.own s (World.mem_snapshots_purgeExpired hm).1, fun s hm hT => ?_⟩
    obtain ⟨c, hc, ht, hg⟩ := hf.held s (World.mem_snapshots_purgeExpired hm).1 hT
    rw [World.purgeExpired, World.foldl_dropSnapshot_snapshots, mem_filter, decide_eq_true_eq] at hm
    refine ⟨c, hc, ht, .trans (World.foldl_dropSnapshot_get fun d hd he => ?_) hg⟩
    refine hm.2 d hd ((congrArg Prod.snd he).trans (hf.own d (World.mem_expired.1 hd).1).2)
  | advance =>
    cases hs
    exact ⟨hf.own, hf.held⟩

/-- **Time travel never invents a state**: in every history a lookup that finds a snapshot finds the
rows of a recorded change not after the target. -/
theorem resolveTimeTravel_recorded (w : World Row) (T : TableId) (steps : List (HistoryStep Row)) :
    Run.Always (History.step T)
      (fun h => ∀ target s, resolveTimeTravel h.world.catalog h.world.now h.world.retentionDays T
        target = .ok (some s) → ∃ c ∈ h.log, c.time = s.snapshotTime ∧ c.time ≤ target ∧
          h.world.storage.get (s.duckdbSchema, s.duckdbTable) = some c.rows)
      ⟨{ w with catalog.snapshots := [] }, []⟩ steps := by
  refine Run.always_of_invariant (I := Faithful T) (fun h hf target s hr => ?_)
    (fun _ _ _ hf hs => hf.step hs) ⟨fun _ hm => (by cases hm), fun _ hm => (by cases hm)⟩ steps
  obtain ⟨hm, hT, ht⟩ := mem_of_resolveTimeTravel hr
  obtain ⟨c, hc, hct, hg⟩ := hf.held s hm hT
  rw [(hf.own s hm).1, (hf.own s hm).2]
  exact ⟨c, hc, hct, hct.le.trans ht, hg⟩

end Bqemulator
