import Bqemulator.Storage.Tables

/-!
# Reading rows through the tabledata API

`tabledata.list` reads a page of a table directly from the database, and tells the number of its
rows.
-/

namespace Bqemulator

variable {Row : Type}

/-- The parameters of a request for a page. -/
structure ListParams where
  maxResults : Int := 10000
  startIndex : Int := 0
  pageToken : Option String := none
  selectedFields : Option String := none

/-- The number of rows of the table, the rows of the page, and the token of the next page if there
is one. -/
structure TableDataList (Row : Type) where
  totalRows : String
  rows : List Row
  pageToken : Option String
deriving DecidableEq

def parseSelectedFields (selectedFields : Option String) : String :=
  let fields := ((selectedFields.getD "").toList.splitOn ',').map fun c =>
    Text.strip (String.ofList c)
  match fields.filter (· ≠ "") with
  | [] => "*"
  | columns => String.ofList
      ([',', ' '].intercalate (columns.map fun c => [Text.doubleQuote] ++ c.toList ++
        [Text.doubleQuote]))

/-- What the handler asks the libraries: the number a token stands for, and a projection of a
row. -/
structure ListEnv (Row : Type) where
  intOf : String → Option Int
  project : String → Except DomainError (Row → Row)

/-- The handler of `tabledata.list`: a page of the table as it is stored. -/
def listTabledata (env : ListEnv Row) (cat : Catalog) (st : Storage Row) (id : TableId)
    (params : ListParams) : Except DomainError (TableDataList Row) :=
  match cat.getTable id with
  | none => .error (.notFound s!"Not found: table:{id.project}.{id.dataset}.{id.table}")
  | some _ =>
    let maxResultsSafe := (max 0 (min params.maxResults 1000000)).toNat
    -- a token that is no number starts at the first row
    let startIndexSafe := match params.pageToken with
      | none => (max 0 params.startIndex).toNat
      | some token => (max 0 ((env.intOf token).getD 0)).toNat
    (quotedTableRef id).bind fun targetRef =>
      match st.get targetRef with
      | none => .error (.engine s!"Table with name {targetRef.2} does not exist!")
      | some stored =>
        (env.project (parseSelectedFields params.selectedFields)).map fun projection =>
          let rows := ((stored.drop startIndexSafe).take maxResultsSafe).map projection
          let nextIndex := startIndexSafe + rows.length
          { totalRows := toString stored.length
            rows := rows
            pageToken := if nextIndex < stored.length then some (toString nextIndex) else none }

end Bqemulator
