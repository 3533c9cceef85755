import TableStore.Engine.Assignment
import TableStore.Engine.Insertion
import TableStore.Engine.Ordering

/-!
# Executing Queries and Changes

The statements that read and change the rows that are there. The rows that a
statement is about are all found before the first of them is changed. Each
change of a row first moves its index entries and then stores the row anew or
removes it.

## Main definitions

* `Engine.select`, `Engine.update`, `Engine.delete`: The statements.
* `pageRows`, `projectRow`: The rows and the members that a query returns.
* `assignRow`: The row that assignments leave.
-/

namespace TableStore

/-- The rows left after the first `offset`, and at most `limit` of them. -/
def pageRows (limit offset : Option Nat) (rows : List Row) : List Row :=
  let rows := rows.drop (offset.getD 0)
  match limit with
  | none => rows
  | some n => rows.take n

/-- The members of a row that a query returns, each under its name in the
    result. A column that the row does not have is left out. -/
def projectRow (items : List SelectItem) (row : Row) : Row :=
  Members.ofList (items.filterMap fun item =>
    (Members.get? row item.column).map fun v => (item.outputName, v))

/-- The items that stand for the columns of a table. Only a name that is a text
    is found in a row. -/
def itemsOf (columns : List Json) : List SelectItem :=
  columns.filterMap fun name =>
    match name with
    | .string column => some ⟨column, none⟩
    | _ => none

/-- The members of rows for the columns of their table. -/
def projectColumns (columns : List Json) (rows : List Row) : Except Fault (List Row) :=
  if rows.isEmpty || columns.all fun name => name.nameKey?.isSome then
    .ok (rows.map (projectRow (itemsOf columns)))
  else .error .misfitMember

/-- The row that assignments leave of an old one. All of them start from the
    old row. -/
def assignRow (schema : StoredSchema) (old : Row) : Row → List Assignment → Except Fault Row
  | row, [] => .ok row
  | row, assignment :: rest =>
    match schema.column? assignment.column with
    | none => .error (.columnNotFound assignment.column schema.name.nameText)
    | some column => do
      let v ← assignment.apply (Row.value old assignment.column)
      let v ← column.coerce v
      assignRow schema old (Members.set row assignment.column v) rest

/-- Whether every assigned column exists and none is the primary key. -/
def checkAssignments (schema : StoredSchema) (table : String) :
    List Assignment → Except Fault Unit
  | [] => .ok ()
  | assignment :: rest =>
    if !schema.hasColumn assignment.column then
      .error (.columnNotFound assignment.column table)
    else if schema.primaryKey = .string assignment.column then
      .error (.primaryKeyAssigned assignment.column table)
    else checkAssignments schema table rest

namespace Engine

/-- Queries rows: finds them, sorts them, takes the page that is asked for and
    projects it. -/
def select (engine : Engine) (table : String) (items : List SelectItem)
    (conditions : List Condition) (order : List OrderItem) (limit offset : Option Nat) :
    Access QueryResult := do
  let schema ← Catalog.requireSchema engine.layout table
  let conditions ← Access.lift (bindConditions schema conditions)
  let name ← Access.lift schema.name.requireText
  let found ← engine.findRows name conditions
  let rows := pageRows limit offset (sortRows order (found.map Prod.snd))
  if items.isEmpty then
    let rows ← Access.lift (projectColumns schema.columnNames rows)
    pure { rows := rows, columns := schema.columnNames }
  else
    pure {
      rows := rows.map (projectRow items)
      columns := items.map fun item => .string item.outputName }

/-- Moves the entries of a row that changes in each index. -/
def moveEntries (engine : Engine) (table : String) (old new : Row) (id : Value) :
    List StoredIndex → Access Unit :=
  Access.forList fun index => do
    let before ← Access.lift (Row.valueOf old index.column)
    let after ← Access.lift (Row.valueOf new index.column)
    Index.moveStored engine.layout table index before after id

/-- Changes each of the rows found, and counts them. -/
def updateRows (engine : Engine) (table : String) (schema : StoredSchema)
    (assignments : List Assignment) (indexes : List StoredIndex) :
    List (Value × Row) → Access Nat
  | [] => pure 0
  | (id, old) :: rest => do
    let row ← Access.lift (assignRow schema old old assignments)
    engine.moveEntries table old row id indexes
    let id ← Access.lift (RowId.toKey id)
    let key ← Access.lift (engine.layout.rowKey? table id)
    let data ← Access.lift (Row.toBytes row)
    Access.store key data
    let n ← updateRows engine table schema assignments indexes rest
    pure (n + 1)

/-- The indexes that are concerned by a change of columns. -/
def concernedIndexes (changed : List String) (indexes : List StoredIndex) :
    Except Fault (List StoredIndex) :=
  if StoredIndex.haveNames indexes then
    .ok (indexes.filter fun index => changed.any fun column => index.column = .string column)
  else .error .misfitMember

/-- Changes the rows that satisfy conditions. -/
def update (engine : Engine) (table : String) (assignments : List Assignment)
    (conditions : List Condition) : Access QueryResult := do
  let schema ← Catalog.requireSchema engine.layout table
  Access.lift (checkAssignments schema table assignments)
  let conditions ← Access.lift (bindConditions schema conditions)
  let indexes ← Catalog.indexes engine.layout table
  let changed := assignments.map Assignment.column
  let concerned ← Access.lift (concernedIndexes changed indexes)
  let name ← Access.lift schema.name.requireText
  let found ← engine.findRows name conditions
  let n ← engine.updateRows table schema assignments concerned found
  pure { affected := n }

/-- Removes each of the rows found, and counts them. -/
def deleteRows (engine : Engine) (table : String) (indexes : List StoredIndex) :
    List (Value × Row) → Access Nat
  | [] => pure 0
  | (id, row) :: rest => do
    engine.moveEntries table row [] id indexes
    let id ← Access.lift (RowId.toKey id)
    let key ← Access.lift (engine.layout.rowKey? table id)
    Access.remove key
    let n ← deleteRows engine table indexes rest
    pure (n + 1)

/-- Removes the rows that satisfy conditions. -/
def delete (engine : Engine) (table : String) (conditions : List Condition) :
    Access QueryResult := do
  let schema ← Catalog.requireSchema engine.layout table
  let conditions ← Access.lift (bindConditions schema conditions)
  let indexes ← Catalog.indexes engine.layout table
  let name ← Access.lift schema.name.requireText
  let found ← engine.findRows name conditions
  let n ← engine.deleteRows table indexes found
  pure { affected := n }

end Engine

end TableStore
