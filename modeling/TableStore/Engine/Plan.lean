import TableStore.Engine.Condition
import TableStore.Index

/-!
# Finding Rows

The rows that a statement is about are found in one of two ways. If a condition
asks for equality with a value that is not null, and an index covers its
column, the rows are those that the index lists for the value; otherwise all
rows of the table are read. Either way every row is tested against all
conditions, so the plan decides only what is read.

## Main definitions

* `Plan`: How rows are found.
* `Engine`: The settings that statements are executed under.
* `Engine.plan`: The plan for conditions.
* `Engine.findRows`: The rows that satisfy conditions, with their ids.
-/

namespace TableStore

/-- How rows are found. -/
inductive Plan where
  | fullScan
  | indexed (name : Json) (column : String) (value : Value)
  deriving DecidableEq

namespace Plan

/-- The name of the first index of a column. A null stands for no index. -/
def indexOf? (indexes : List StoredIndex) (column : String) : Option Json :=
  match indexes.find? fun index => index.column = .string column with
  | some index => if index.name = .null then none else some index.name
  | none => none

/-- The plan for conditions on a table with the given indexes: the first
    condition that asks for a value of an indexed column, and the first index
    of that column. -/
def choose (indexes : List StoredIndex) : List Condition → Plan
  | [] => .fullScan
  | condition :: rest =>
    if condition.operator = .equal && !condition.value.isNull then
      match indexOf? indexes condition.column with
      | some name => .indexed name condition.column condition.value
      | none => choose indexes rest
    else choose indexes rest

end Plan

/-- The settings that statements are executed under. -/
structure Engine where
  layout : KeyLayout
  useIndexes : Bool := true

namespace Engine

/-- The plan for conditions. -/
def plan (engine : Engine) (table : String) (conditions : List Condition) : Access Plan := do
  if !engine.useIndexes || conditions.isEmpty then pure .fullScan
  else
    let indexes ← Catalog.indexes engine.layout table
    if StoredIndex.haveNames indexes then pure (Plan.choose indexes conditions)
    else Access.fail .misfitMember

/-- The id that a row keeps of itself. -/
def idOf (row : Row) : Except Fault Value :=
  match Members.get? row rowIdMember with
  | some id => .ok id
  | none => .error (.missingMember rowIdMember)

/-- The row with an id that an index lists, if it is there and satisfies the
    conditions. -/
def fetchMatching (engine : Engine) (table : String) (conditions : List Condition) (id : String) :
    Access (Option (Value × Row)) := do
  let key ← Access.lift (engine.layout.rowKey? table (Text.encode id))
  match ← Access.fetch key with
  | none => pure none
  | some data =>
    let row ← Access.lift (Row.ofBytes data)
    let matched ← Access.lift (satisfies row conditions)
    pure (if matched then some (.text id, row) else none)

/-- The rows among the entries that satisfy the conditions, with their ids. -/
def matchingRows (conditions : List Condition) : List Entry → Except Fault (List (Value × Row))
  | [] => .ok []
  | (_, data) :: rest => do
    let row ← Row.ofBytes data
    let matched ← satisfies row conditions
    if matched then
      let id ← idOf row
      let others ← matchingRows conditions rest
      .ok ((id, row) :: others)
    else matchingRows conditions rest

/-- The rows of a table that satisfy conditions, with their ids, in the order
    of their keys. -/
def findRows (engine : Engine) (table : String) (conditions : List Condition) :
    Access (List (Value × Row)) := do
  match ← engine.plan table conditions with
  | .indexed name _ v =>
    let name ← Access.lift name.requireText
    let ids ← Index.rowIds engine.layout table name v
    -- An entry whose row is gone, or no longer satisfies the conditions, yields nothing.
    let found ← Access.mapList (engine.fetchMatching table conditions) ids
    pure (found.filterMap id)
  | .fullScan =>
    let start ← Access.lift (engine.layout.rowPrefix? table)
    let found ← Access.entries start
    Access.lift (matchingRows conditions found)

/-- All rows of a table with their ids. -/
def allRows (engine : Engine) (table : String) : Access (List (Value × Row)) := do
  let start ← Access.lift (engine.layout.rowPrefix? table)
  let found ← Access.entries start
  Access.lift (matchingRows [] found)

end Engine

end TableStore
