import Bqemulator.Catalog.Models

/-!
# Table records

The catalog entry of a table with all of its fields, as the API and the information schema read it.
-/

namespace Bqemulator

inductive FieldMode where
  | nullable
  | required
  | repeated
deriving DecidableEq

def FieldMode.text : FieldMode → String
  | .nullable => "NULLABLE"
  | .required => "REQUIRED"
  | .repeated => "REPEATED"

/-- A column, with the columns of a struct and the element of a range. -/
structure TableField where
  name : String
  type : String
  mode : FieldMode := .nullable
  fields : List TableField := []
  description : Option String := none
  maxLength : Option Int := none
  precision : Option Int := none
  scale : Option Int := none
  defaultValueExpression : Option String := none
  collation : Option String := none
  roundingMode : Option String := none
  rangeElementType : Option TableField := none

/-- How a table is partitioned by time. -/
structure TimePartitioning where
  type : String := "DAY"
  field : Option String := none
  expirationMs : Option Int := none
  requirePartitionFilter : Bool := false
deriving DecidableEq

/-- How a table is partitioned by an integer column. -/
structure RangePartitioning where
  field : String
  start : Int
  stop : Int
  interval : Int
deriving DecidableEq

/-- **The catalog entry of a table**, with all of its fields. -/
structure TableRecord where
  projectId : String
  datasetId : String
  tableId : String
  tableType : TableType := .table
  schema : List TableField := []
  friendlyName : Option String := none
  description : Option String := none
  labels : List (String × String) := []
  timePartitioning : Option TimePartitioning := none
  rangePartitioning : Option RangePartitioning := none
  clustering : Option (List String) := none
  expirationTime : Option Time := none
  creationTime : Time
  lastModifiedTime : Time
  numRows : Int := 0
  numBytes : Int := 0
  etag : String
  viewQuery : Option String := none
  useLegacySql : Bool := false
  baseTable : Option String := none
  snapshotTime : Option Time := none

def TableRecord.id (r : TableRecord) : TableId := ⟨r.projectId, r.datasetId, r.tableId⟩

end Bqemulator
