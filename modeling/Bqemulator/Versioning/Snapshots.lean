import Bqemulator.Lib.Run
import Bqemulator.Lib.Timeline
import Bqemulator.Storage.Tables

/-!
# Snapshot capture, lookup and garbage collection

Every recorded change of a table copies its rows into a table of the snapshot schema. A `FOR
SYSTEM_TIME AS OF` reference is answered from the snapshot with the largest time not after the
target, and a periodic task drops the automatic snapshots whose retention has passed.
-/

namespace Bqemulator

open List

variable {Row : Type}

/-- The clock, the catalog, the storage and the published events. -/
structure World (Row : Type) where
  now : Time
  retentionDays : Nat
  catalog : Catalog
  storage : Storage Row
  events : List TableId := []

def day : Time := 86400000000

/-! ## Capture -/

/-- A snapshot id: the time in nanoseconds, at least twenty digits, and a random part. -/
def newSnapshotId (now : Time) (hex : String) : String :=
  let nanos := toString (now * 1000)
  "s_" ++ String.ofList (List.replicate (20 - nanos.length) '0') ++ nanos ++ "_" ++ hex

theorem newSnapshotId_ne_empty (n : Time) (hex : String) : newSnapshotId n hex ≠ "" := by
  intro h
  have := congrArg String.toList h
  simp [newSnapshotId] at this

/-- The record of a snapshot of `id` taken at `now`; one of kind `USER` never expires. -/
def snapshotMeta (now : Time) (retentionDays : Nat) (id : TableId) (kind : SnapshotKind)
    (hex : String) : SnapshotMeta where
  snapshotId := newSnapshotId now hex
  source := id
  snapshotTime := now
  kind := kind
  duckdbSchema := snapshotsSchema
  duckdbTable := newSnapshotId now hex
  expiresAt := if kind = .user then none else some (now + retentionDays * day)
  schema_ne := by decide
  schema_plain := by rw [snapshotsSchema_toList]; decide
  table_ne := newSnapshotId_ne_empty now hex

variable {key : String × String} {now target : Time}

namespace World

variable (w : World Row)

def addSnapshot (s : SnapshotMeta) (rows : List Row) : World Row :=
  { w with
    catalog := { w.catalog with snapshots := w.catalog.snapshots ++ [s] }
    storage := w.storage.put (s.duckdbSchema, s.duckdbTable) rows }

/-- Capture: copy the rows of a table into a new table of the snapshot schema, and record it.
The copy fails if its name is taken. -/
def capture (id : TableId) (kind : SnapshotKind) (hex : String) :
    Except DomainError (World Row × Option SnapshotMeta) :=
  match w.catalog.getTable id with
  | none => .ok (w, none)
  | some _ =>
    match quotedTableRef id with
    | .error e => .error e
    | .ok source =>
      let s := snapshotMeta w.now w.retentionDays id kind hex
      match w.storage.get source, w.storage.get (s.duckdbSchema, s.duckdbTable) with
      | none, _ => .error (.engine s!"Table with name {source.2} does not exist!")
      | some _, some _ => .error (.engine s!"Table with name {s.duckdbTable} already exists!")
      | some rows, none =>
        if w.catalog.snapshots.any fun t => t.snapshotId = s.snapshotId then
          .error (.alreadyExists s!"Already Exists: snapshot {s.snapshotId}")
        else .ok (w.addSnapshot s rows, some s)

/-- A recorded change: an automatic snapshot of the new rows, and the event. -/
def recordChange (id : TableId) (hex : String) : Except DomainError (World Row) :=
  match w.capture id .auto hex with
  | .error e => .error e
  | .ok (w', _) => .ok { w' with events := w'.events ++ [id] }

variable {id : TableId} {hex : String} {w w' : World Row}

/-- What a capture does: nothing for an unknown table, else one new snapshot with the table's
rows, in a new table, under a new id. -/
theorem capture_cases {kind : SnapshotKind} {r : Option SnapshotMeta}
    (h : w.capture id kind hex = .ok (w', r)) :
    (w.catalog.getTable id = none ∧ w' = w ∧ r = none) ∨
    (∃ m rows, w.catalog.getTable id = some m ∧ w.storage.get id.key = some rows ∧
      w.storage.get (snapshotsSchema, newSnapshotId w.now hex) = none ∧
      (∀ t ∈ w.catalog.snapshots, t.snapshotId ≠ newSnapshotId w.now hex) ∧
      w' = w.addSnapshot (snapshotMeta w.now w.retentionDays id kind hex) rows ∧
      r = some (snapshotMeta w.now w.retentionDays id kind hex)) := by
  unfold capture at h
  cases hm : w.catalog.getTable id with
  | none =>
    simp only [hm, Except.ok.injEq, Prod.mk.injEq] at h
    exact .inl ⟨rfl, h.1.symm, h.2.symm⟩
  | some m =>
    right
    simp only [hm] at h
    split at h
    · cases h
    rename_i source hs
    obtain rfl := (quotedTableRef_eq_ok hs).1
    split at h
    · cases h
    · cases h
    rename_i rows hr hf
    split at h
    · cases h
    · rename_i ha
      simp only [any_eq_true, decide_eq_true_eq, not_exists, not_and] at ha
      simp only [Except.ok.injEq, Prod.mk.injEq] at h
      exact ⟨m, rows, rfl, hr, hf, ha, h.1.symm, h.2.symm⟩

/-- Whether a snapshot can be taken under an id. -/
def SnapshotFree (w : World Row) (snapshotId : String) : Prop :=
  w.storage.get (snapshotsSchema, snapshotId) = none ∧
    ∀ t ∈ w.catalog.snapshots, t.snapshotId ≠ snapshotId

theorem snapshotFree_addSnapshot (w : World Row) (n : Time) (r : Nat) (id : TableId)
    (kind : SnapshotKind) (hex : String) (rows : List Row) (s : String) :
    (w.addSnapshot (snapshotMeta n r id kind hex) rows).SnapshotFree s ↔
      w.SnapshotFree s ∧ s ≠ newSnapshotId n hex := by
  by_cases h : s = newSnapshotId n hex
  · subst h
    refine iff_of_false (fun hf => ?_) fun hf => hf.2 rfl
    exact hf.2 (snapshotMeta n r id kind hex)
      (mem_append_right _ (mem_singleton.2 rfl)) rfl
  rw [and_iff_left h]
  refine and_congr ?_ ?_
  · rw [show (w.addSnapshot _ rows).storage.get (snapshotsSchema, s) =
      w.storage.get (snapshotsSchema, s)
      from Storage.get_put_of_ne _ _ fun heq => h (congrArg Prod.snd heq)]
  refine ⟨fun hf t ht => hf t (mem_append_left _ ht), fun hf t ht => ?_⟩
  rcases mem_append.1 ht with ht | ht
  · exact hf t ht
  · obtain rfl := mem_singleton.1 ht
    exact fun heq => h heq.symm

/-- When a change can be recorded. -/
theorem recordChange_eq_ok_iff {rows : List Row} (hk : quotedTableRef id = .ok key)
    (hr : w.storage.get id.key = some rows) :
    (∃ w', w.recordChange id hex = .ok w') ↔
      w.catalog.getTable id = none ∨ w.SnapshotFree (newSnapshotId w.now hex) := by
  obtain rfl := (quotedTableRef_eq_ok hk).1
  cases hm : w.catalog.getTable id with
  | none => simp [recordChange, capture, hm]
  | some m =>
    simp only [recordChange, capture, hm, hk, hr, snapshotMeta, SnapshotFree, reduceCtorEq]
    cases hf : w.storage.get (snapshotsSchema, newSnapshotId w.now hex) with
    | some => simp
    | none =>
      by_cases ha : w.catalog.snapshots.any fun t => t.snapshotId = newSnapshotId w.now hex
      · simp only [ha, if_true, true_and]
        simpa using ha
      · simp only [ha, if_false, true_and]
        simpa using ha

/-- What a recorded change does. -/
theorem recordChange_cases (h : w.recordChange id hex = .ok w') :
    (w.catalog.getTable id = none ∧ w' = { w with events := w.events ++ [id] }) ∨
    (∃ m rows, w.catalog.getTable id = some m ∧
      w' = { w.addSnapshot (snapshotMeta w.now w.retentionDays id .auto hex) rows with
        events := w.events ++ [id] }) := by
  unfold recordChange at h
  split at h
  · cases h
  rename_i w1 r hc
  obtain rfl := Except.ok.inj h
  rcases capture_cases hc with ⟨hm, rfl, -⟩ | ⟨m, rows, hm, -, -, -, rfl, -⟩
  · exact .inl ⟨hm, rfl⟩
  · exact .inr ⟨m, rows, hm, rfl⟩

end World

/-! ## Lookup -/

/-- Times are compared as numbers. The order that is found otherwise, through completeness, cannot
be executed. -/
instance (priority := 2000) timePreorder : Preorder Time := Int.instLinearOrder.toPreorder

/-- The lookup of `FOR SYSTEM_TIME AS OF target`: the snapshot with the largest time not after
the target, the one recorded first if several have it. A table without snapshots is read live. -/
def resolveTimeTravel (cat : Catalog) (now : Time) (retentionDays : Nat) (id : TableId)
    (target : Time) : Except DomainError (Option SnapshotMeta) :=
  if target > now then
    .error (.outOfRange s!"FOR SYSTEM_TIME AS OF is in the future: {target}")
  else if target < now - retentionDays * day then
    .error (.outOfRange
      s!"FOR SYSTEM_TIME AS OF is before the retention window (retention = {retentionDays} days)")
  else
    let snaps := cat.listSnapshotsForTable id
    if snaps.isEmpty then .ok none
    else
      let eligible := snaps.filter fun s => s.snapshotTime ≤ target
      match eligible.argmax SnapshotMeta.snapshotTime with
      | none => .error (.outOfRange <| "FOR SYSTEM_TIME AS OF is before the table's first " ++
          "captured state; no snapshot is available")
      | some s => .ok (some s)

variable {s : SnapshotMeta}

theorem argmax_of_resolveTimeTravel {c : Catalog} {days : Nat} {id : TableId}
    (h : resolveTimeTravel c now days id target = .ok (some s)) :
    ((c.listSnapshotsForTable id).filter fun s => s.snapshotTime ≤ target).argmax
      SnapshotMeta.snapshotTime = some s := by
  unfold resolveTimeTravel at h
  split at h <;> [cases h; skip]
  split at h <;> [cases h; skip]
  simp only at h
  split at h <;> [cases h; skip]
  split at h <;> [cases h; skip]
  rename_i s' hm
  obtain rfl : s' = s := by simpa using h
  exact hm

theorem mem_of_resolveTimeTravel {c : Catalog} {days : Nat} {id : TableId}
    (h : resolveTimeTravel c now days id target = .ok (some s)) :
    s ∈ c.snapshots ∧ s.source = id ∧ s.snapshotTime ≤ target := by
  have hm := argmax_mem (argmax_of_resolveTimeTravel h)
  rw [mem_filter, Catalog.mem_listSnapshotsForTable] at hm
  exact ⟨hm.1.1, hm.1.2, by simpa using hm.2⟩

/-! ## Garbage collection -/

namespace World

def dropSnapshot (w : World Row) (s : SnapshotMeta) : World Row :=
  { w with
    catalog :=
      { w.catalog with snapshots := w.catalog.snapshots.filter fun t =>
        t.snapshotId ≠ s.snapshotId }
    storage := w.storage.drop (s.duckdbSchema, s.duckdbTable) }

end World

def SnapshotMeta.isExpired (now : Time) (s : SnapshotMeta) : Bool :=
  s.kind = .auto && s.expiresAt.any fun e => e ≤ now

def Catalog.listAllSnapshots (cat : Catalog) : List SnapshotMeta :=
  cat.snapshots.insertionSort fun a b => a.snapshotTime ≤ b.snapshotTime

/-- Garbage collection: drop every automatic snapshot whose expiry is not after the clock. -/
def World.purgeExpired (w : World Row) : World Row :=
  (w.catalog.listAllSnapshots.filter (SnapshotMeta.isExpired w.now)).foldl World.dropSnapshot w

namespace World

theorem foldl_dropSnapshot_snapshots (w : World Row) (d : List SnapshotMeta) :
    (d.foldl dropSnapshot w).catalog.snapshots =
      w.catalog.snapshots.filter fun t => ∀ s ∈ d, t.snapshotId ≠ s.snapshotId := by
  induction d generalizing w with
  | nil => simp
  | cons s d ih =>
    rw [foldl_cons, ih]
    simp [dropSnapshot, Bool.and_comm]

variable {w : World Row}

theorem foldl_dropSnapshot_get {d : List SnapshotMeta}
    (h : ∀ s ∈ d, key ≠ (s.duckdbSchema, s.duckdbTable)) :
    (d.foldl dropSnapshot w).storage.get key = w.storage.get key := by
  induction d generalizing w with
  | nil => rfl
  | cons s d ih =>
    rw [foldl_cons, ih fun t ht => h t (mem_cons_of_mem _ ht)]
    exact Storage.get_drop_of_ne _ (h s (by simp))

theorem foldl_dropSnapshot_frame (w : World Row) (d : List SnapshotMeta) :
    (d.foldl dropSnapshot w).now = w.now ∧
      (d.foldl dropSnapshot w).retentionDays = w.retentionDays ∧
      (d.foldl dropSnapshot w).catalog.tables = w.catalog.tables := by
  induction d generalizing w with
  | nil => exact ⟨rfl, rfl, rfl⟩
  | cons s d ih => exact ih (w.dropSnapshot s)

theorem mem_expired :
    s ∈ w.catalog.listAllSnapshots.filter (SnapshotMeta.isExpired w.now) ↔
      s ∈ w.catalog.snapshots ∧ s.isExpired w.now = true := by
  simp [Catalog.listAllSnapshots]

/-- What garbage collection keeps. -/
theorem mem_snapshots_purgeExpired (h : s ∈ w.purgeExpired.catalog.snapshots) :
    s ∈ w.catalog.snapshots ∧ s.isExpired w.now = false := by
  rw [purgeExpired, foldl_dropSnapshot_snapshots, mem_filter, decide_eq_true_eq] at h
  refine ⟨h.1, ?_⟩
  by_contra he
  exact h.2 s (mem_expired.2 ⟨h.1, by simpa using he⟩) rfl

end World

end Bqemulator
