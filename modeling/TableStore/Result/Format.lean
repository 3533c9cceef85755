import TableStore.Engine.Definition
import TableStore.Result.Document
import TableStore.Result.Table

/-!
# Result Formats

## Main definitions

* `ResultFormat`: The formats that results can be rendered in.
* `ResultFormat.ofName`: The format of a name in any case.
* `QueryResult.toTable`, `QueryResult.toDocument`, `QueryResult.render`: The
  text of a result.
-/

namespace TableStore

/-- The formats that results can be rendered in. -/
inductive ResultFormat where
  | table
  | document
  deriving DecidableEq

namespace ResultFormat

/-- The name of a format. -/
def name : ResultFormat → String
  | table => "toon"
  | document => "json"

/-- The format of a name in any case. -/
def ofName (s : String) : Except Fault ResultFormat :=
  let small := Text.toLower s.toList
  if small = "toon".toList then .ok table
  else if small = "json".toList then .ok document
  else .error (.unknownFormat s)

end ResultFormat

namespace QueryResult

/-- The fields that a result is rendered with, if it names any. -/
def fields? (result : QueryResult) : Option (List Json) :=
  if result.columns.isEmpty then none else some result.columns

/-- A result as a table, whose columns have to be named by texts. -/
def toTable (result : QueryResult) (table : String) : Except Fault String := do
  let names ← result.columns.mapM Json.requireText
  renderTable table result.rows (if names.isEmpty then none else some names)

/-- A result as a JSON document. -/
def toDocument (result : QueryResult) (table : String) (compact : Bool) : Except Fault String :=
  renderDocument table result.rows result.fields? compact

/-- A result in a format. -/
def render (result : QueryResult) (table : String) : ResultFormat → Except Fault String
  | .table => result.toTable table
  | .document => result.toDocument table true

end QueryResult

end TableStore
