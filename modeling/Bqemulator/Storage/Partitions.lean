import Bqemulator.Catalog.Records
import Bqemulator.Lib.Doubles

/-!
# Partitions

`INFORMATION_SCHEMA.PARTITIONS` lists the partitions of a table with their numbers of rows.
Partitions by time count the rows without a key apart; those by a range of integers leave them out,
and the rows outside the range too. The bucket of a key is computed in floating point.
-/

namespace Bqemulator

structure PartitionMeta where
  tableCatalog : String
  tableSchema : String
  tableName : String
  partitionId : String
  totalRows : Nat
  lastModifiedTime : Time

/-- **What the listing asks of its surroundings**: the columns of a row, the texts of times, and
rounding. -/
structure PartitionEngine (Row Key : Type) where
  timeColumn : String → Row → Option Key
  intColumn : String → Row → Option Int
  strftime : String → Key → String
  clockStrftime : String → Time → String
  doubles : Rounding
  strftime_ne : ∀ fmt v, strftime fmt v ≠ "__NULL__"

def granularityFormat : String → Option String
  | "DAY" => some "%Y%m%d"
  | "HOUR" => some "%Y%m%d%H"
  | "MONTH" => some "%Y%m"
  | "YEAR" => some "%Y"
  | _ => none

namespace RangePartitioning

def covers (rp : RangePartitioning) (v : Int) : Bool := rp.start ≤ v ∧ v < rp.stop

/-- The bucket of a key, in exact arithmetic. -/
def bucketStart (rp : RangePartitioning) (v : Int) : Int :=
  rp.start + rp.interval * ((v - rp.start).fdiv rp.interval)

/-- `CAST(start + FLOOR((v - start) / interval) * interval AS BIGINT)`: the difference is one of
integers, all that follows is of doubles. -/
def bucket (D : Rounding) (rp : RangePartitioning) (v : Int) : Int :=
  let quotient := D.round (D.round ↑(v - rp.start) / D.round rp.interval)
  let product := D.round (↑⌊quotient⌋ * D.round rp.interval)
  round (D.round (D.round rp.start + product))

/-- **A range that is not too large for doubles.** -/
structure Moderate (rp : RangePartitioning) : Prop where
  interval_pos : 0 < rp.interval
  start_le : |rp.start| ≤ 2 ^ 53
  stop_le : |rp.stop| ≤ 2 ^ 53
  width : rp.stop - rp.start + rp.interval ≤ 2 ^ 52

/-- The bucket of a key in a moderate range is the right one: no rounding changes a number. -/
theorem bucket_eq (D : Rounding) {rp : RangePartitioning} (h : rp.Moderate) {v : Int}
    (hv : rp.covers v = true) : rp.bucket D v = rp.bucketStart v := by
  obtain ⟨hs, he⟩ := of_decide_eq_true hv
  obtain ⟨hi, hb, hb', hw⟩ := h
  have hd : D.round ↑(v - rp.start) = ↑(v - rp.start) := by
    refine D.round_int ?_
    rw [abs_of_nonneg (by omega)]
    linarith
  have hI : D.round rp.interval = rp.interval := by
    refine D.round_int ?_
    rw [abs_of_pos hi]
    linarith
  have hf := D.floor_div (a := v - rp.start) (by omega) hi (by linarith)
  have hle := Int.ediv_mul_le (v - rp.start) hi.ne'
  have hn : 0 ≤ (v - rp.start) / rp.interval := Int.ediv_nonneg (by omega) hi.le
  have hp : D.round (↑((v - rp.start) / rp.interval) * rp.interval) =
      ↑((v - rp.start) / rp.interval * rp.interval) := by
    rw [← Int.cast_mul]
    refine D.round_int ?_
    rw [abs_of_nonneg (by positivity)]
    linarith
  rw [bucket, bucketStart, hd, hI, hf, hp, D.round_int hb, ← Int.cast_add, D.round_int,
    round_intCast, Int.fdiv_eq_ediv_of_nonneg _ hi.le, mul_comm]
  have := abs_le.1 hb
  have := abs_le.1 hb'
  have hn' : 0 ≤ (v - rp.start) / rp.interval * rp.interval := by positivity
  exact abs_le.2 ⟨by linarith, by linarith⟩

end RangePartitioning

/-- `SELECT k, COUNT(*) … GROUP BY 1 ORDER BY 1`. -/
def groupCounts {α : Type} [DecidableEq α] [LE α] [DecidableLE α] (keys : List α) :
    List (α × Nat) :=
  (keys.dedup.insertionSort (· ≤ ·)).map fun k => (k, keys.count k)

def TableRecord.partition (t : TableRecord) (partitionId : String) (totalRows : Nat) :
    PartitionMeta :=
  ⟨t.projectId, t.datasetId, t.tableId, partitionId, totalRows, t.lastModifiedTime⟩

open List PartitionMeta

section Listing

variable {Row Key : Type} (E : PartitionEngine Row Key) (t : TableRecord) (rows : List Row)

def listTimePartitions (tp : TimePartitioning) : List PartitionMeta :=
  match granularityFormat tp.type, tp.field with
  | none, _ => []
  | some fmt, none => [t.partition (E.clockStrftime fmt t.lastModifiedTime) rows.length]
  | some fmt, some col =>
    let nullCount := rows.countP fun r => (E.timeColumn col r).isNone
    (groupCounts (rows.filterMap fun r => (E.timeColumn col r).map (E.strftime fmt))).map
        (fun g => t.partition g.1 g.2) ++
      if 0 < nullCount then [t.partition "__NULL__" nullCount] else []

def listRangePartitions (rp : RangePartitioning) : List PartitionMeta :=
  (groupCounts (rows.filterMap fun r =>
    ((E.intColumn rp.field r).filter rp.covers).map (rp.bucket E.doubles))).map
      fun g => t.partition (toString g.1) g.2

def listUnpartitioned : List PartitionMeta := [t.partition "__NULL__" rows.length]

/-- The partitions of a table. -/
def listPartitionsForTable : List PartitionMeta :=
  match t.timePartitioning, t.rangePartitioning with
  | some tp, _ => listTimePartitions E t rows tp
  | none, some rp => listRangePartitions E t rows rp
  | none, none => listUnpartitioned t rows

/-- The partition that counts a row. -/
def PartitionEngine.partitionOf (r : Row) : Option String :=
  match t.timePartitioning, t.rangePartitioning with
  | some tp, _ => (granularityFormat tp.type).map fun fmt =>
    match tp.field with
    | none => E.clockStrftime fmt t.lastModifiedTime
    | some col => ((E.timeColumn col r).map (E.strftime fmt)).getD "__NULL__"
  | none, some rp =>
    ((E.intColumn rp.field r).filter rp.covers).map fun v => toString (rp.bucket E.doubles v)
  | none, none => some "__NULL__"

def rowsIn (parts : List PartitionMeta) (id : String) : Nat :=
  ((parts.filter (·.partitionId = id)).map totalRows).sum

/-- **Every row is counted once**: the ids are distinct, the numbers add up, and without a row in
range its bucket has one less. -/
structure Partitions : Prop where
  distinct : ((listPartitionsForTable E t rows).map partitionId).Nodup
  complete : ((listPartitionsForTable E t rows).map totalRows).sum = rows.length
  bucketed : t.timePartitioning = none → ∀ rp, t.rangePartitioning = some rp →
    ∀ before r after v, rows = before ++ r :: after → E.intColumn rp.field r = some v →
      rp.covers v = true →
      rowsIn (listPartitionsForTable E t rows) (toString (rp.bucketStart v)) =
        rowsIn (listPartitionsForTable E t (before ++ after)) (toString (rp.bucketStart v)) + 1

section Groups

variable {α : Type} [DecidableEq α] [LE α] [DecidableLE α] {f : α → String} (keys : List α)

theorem sum_groups (p : String → Bool) :
    ((((groupCounts keys).map fun g => t.partition (f g.1) g.2).filter
        (p ·.partitionId)).map totalRows).sum = keys.countP fun k => p (f k) := by
  rw [← sum_map_count_dedup_filter_eq_countP, groupCounts, map_map, filter_map, map_map]
  exact (((keys.dedup.perm_insertionSort _).filter _).map _).sum_eq

theorem nodup_groups (hf : f.Injective) :
    (((groupCounts keys).map fun g => t.partition (f g.1) g.2).map partitionId).Nodup := by
  rw [groupCounts, map_map, map_map]
  exact ((perm_insertionSort _ _).nodup_iff.2 keys.nodup_dedup).map hf

end Groups

/-- A partition counts the rows that are in it. -/
theorem sum_listPartitions (p : String → Bool) :
    (((listPartitionsForTable E t rows).filter (p ·.partitionId)).map totalRows).sum =
      rows.countP fun r => (E.partitionOf t r).any p := by
  unfold listPartitionsForTable PartitionEngine.partitionOf
  rcases t.timePartitioning with - | tp
  · rcases t.rangePartitioning with - | rp
    · cases h : p "__NULL__" <;> simp [listUnpartitioned, TableRecord.partition, h]
    refine (sum_groups t _ p).trans ?_
    rw [countP_filterMap]
    congr 1
    funext r
    dsimp only
    cases (E.intColumn rp.field r).filter rp.covers <;> rfl
  · dsimp only [listTimePartitions]
    rcases granularityFormat tp.type with - | fmt
    · simp
    rcases tp.field with - | col
    · cases h : p (E.clockStrftime fmt t.lastModifiedTime) <;> simp [TableRecord.partition, h]
    have hn (n : Nat) : (((if 0 < n then [t.partition "__NULL__" n] else []).filter
        (p ·.partitionId)).map totalRows).sum = if p "__NULL__" then n else 0 := by
      cases h : p "__NULL__" <;> rcases n with - | n <;> simp [TableRecord.partition, h]
    dsimp only
    rw [filter_append, map_append, sum_append, sum_groups t (f := fun k => k), hn, countP_filterMap]
    induction rows with
    | nil => simp
    | cons r rows ih => cases hk : E.timeColumn col r <;> grind

theorem nodup_listPartitions : ((listPartitionsForTable E t rows).map partitionId).Nodup := by
  unfold listPartitionsForTable
  rcases t.timePartitioning with - | tp
  · rcases t.rangePartitioning with - | rp
    · exact nodup_singleton _
    · exact nodup_groups t _ fun _ _ => Int.repr_injective
  dsimp only [listTimePartitions]
  rcases granularityFormat tp.type with - | fmt
  · exact nodup_nil
  rcases tp.field with - | col
  · exact nodup_singleton _
  dsimp only
  rw [map_append]
  refine (nodup_groups t _ Function.injective_id).append (by split <;> simp) ?_
  -- no time has the text of the special partition
  intro id hi hn
  obtain rfl : id = "__NULL__" := by split at hn <;> simp_all [TableRecord.partition]
  simp [groupCounts, TableRecord.partition, E.strftime_ne] at hi

/-- A row that is in a partition: its key is in the range, if there is one. -/
def PartitionEngine.Counts (r : Row) : Prop :=
  match t.timePartitioning, t.rangePartitioning with
  | some tp, _ => (granularityFormat tp.type).isSome
  | none, some rp => ∃ v, E.intColumn rp.field r = some v ∧ rp.covers v = true
  | none, none => True

variable {t} in
theorem counts_iff (hmoderate : ∀ rp, t.rangePartitioning = some rp → rp.Moderate) (r : Row) :
    E.Counts t r ↔ (E.partitionOf t r).isSome ∧
      (t.timePartitioning = none → ∀ rp, t.rangePartitioning = some rp → ∀ v,
        E.intColumn rp.field r = some v → rp.covers v = true →
          E.partitionOf t r = some (toString (rp.bucketStart v))) := by
  unfold PartitionEngine.Counts PartitionEngine.partitionOf
  rcases t.timePartitioning with - | tp
  · rcases hrp : t.rangePartitioning with - | rp
    · simp
    · have hb v := RangePartitioning.bucket_eq E.doubles (hmoderate rp hrp) (v := v)
      cases hk : E.intColumn rp.field r with
      | none => simp [hk]
      | some v => cases hc : rp.covers v <;> simp [hk, hc, hb]
  · simp

/-- **Every row is counted once, and under its bucket**, iff the table is not partitioned by a
range, or all rows have a key in it. -/
theorem partitions_iff (hmoderate : ∀ rp, t.rangePartitioning = some rp → rp.Moderate) :
    Partitions E t rows ↔ ∀ r ∈ rows, E.Counts t r := by
  have hto : ((listPartitionsForTable E t rows).map totalRows).sum = rows.length ↔
      ∀ r ∈ rows, (E.partitionOf t r).isSome := by
    have h := sum_listPartitions E t rows fun _ => true
    rw [filter_true] at h
    rw [h, countP_eq_length]
    simp
  have ho (before after : List Row) (r : Row) (id : String) :
      rowsIn (listPartitionsForTable E t (before ++ r :: after)) id =
        rowsIn (listPartitionsForTable E t (before ++ after)) id + 1 ↔
      E.partitionOf t r = some id := by
    have hi (rows : List Row) : rowsIn (listPartitionsForTable E t rows) id =
        rows.countP fun r => (E.partitionOf t r).any (· = id) :=
      sum_listPartitions E t rows (· = id)
    rw [hi, hi, countP_append, countP_append, countP_cons]
    cases E.partitionOf t r <;> grind
  constructor
  · intro h r hr
    refine (counts_iff E hmoderate r).2 ⟨hto.1 h.complete r hr, fun ht rp hrp v hk hc => ?_⟩
    obtain ⟨before, after, rfl⟩ := append_of_mem hr
    exact (ho before after r _).1 (h.bucketed ht rp hrp before r after v rfl hk hc)
  intro h
  have hco r hr := (counts_iff E hmoderate r).1 (h r hr)
  refine ⟨nodup_listPartitions E t rows, hto.2 fun r hr => (hco r hr).1, ?_⟩
  rintro ht rp hrp before r after v rfl hk hc
  exact (ho before after r _).2 ((hco r (by simp)).2 ht rp hrp v hk hc)

end Listing

/-- Rows that are their keys. -/
def keyRows : PartitionEngine (Option Int) Int where
  timeColumn _ _ := none
  intColumn _ r := r
  strftime _ _ := ""
  clockStrftime _ _ := ""
  doubles := ⟨id, monotone_id, fun _ _ _ _ => rfl⟩
  strftime_ne := by simp

/-- A table of the range from 0 to 10, in steps of 5. -/
def tenKeys : TableRecord where
  projectId := "p"
  datasetId := "d"
  tableId := "t"
  creationTime := 0
  lastModifiedTime := 0
  etag := ""
  rangePartitioning := some ⟨"k", 0, 10, 5⟩

theorem partitions_threeKeys : Partitions keyRows tenKeys [some 3, some 7, some 4] := by
  refine (partitions_iff keyRows tenKeys _ fun rp h => ?_).2 ?_
  · cases h
    exact ⟨by decide, by decide, by decide, by decide⟩
  · simp [PartitionEngine.Counts, tenKeys, keyRows, RangePartitioning.covers]

/-- A row without a key is in no partition. -/
theorem partitions_null : ¬ Partitions keyRows tenKeys [none] := by
  intro h
  have hc := h.complete
  simp [listPartitionsForTable, listRangePartitions, tenKeys, keyRows, groupCounts] at hc

end Bqemulator
