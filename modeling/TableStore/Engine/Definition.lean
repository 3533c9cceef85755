import TableStore.Engine.Plan

/-!
# Executing Definitions

The statements that change the catalog. Everything that can be checked is
checked before the first change. A table takes its indexes and rows with it,
and a new index is given the entries of the rows that are already there.

## Main definitions

* `QueryResult`: What a statement returns.
* `Engine.createTable`, `Engine.dropTable`, `Engine.createIndex`,
  `Engine.dropIndex`: The statements.
-/

namespace TableStore

/-- What a statement returns: rows with the names of their columns, and how
    many rows or entries it was about. The names are texts unless they are
    taken from a stored schema that has others. -/
structure QueryResult where
  rows : List Row := []
  columns : List Json := []
  affected : Nat := 0
  deriving DecidableEq

namespace Engine

/-- Whether every default fits its column. -/
def checkDefaults (columns : List Column) : Except Fault Unit :=
  match columns with
  | [] => .ok ()
  | column :: rest => do
    let _ ← column.default.coerce column.typeName column.name
    checkDefaults rest

/-- Creates a table. -/
def createTable (engine : Engine) (table : String) (columns : List Column)
    (primaryKey : Option String) (ifNotExists : Bool) : Access QueryResult := do
  let names := columns.map Column.name
  match ← Catalog.schema? engine.layout table with
  | some _ =>
    if ifNotExists then pure { columns := names.map .string }
    else Access.fail (.tableExists table)
  | none =>
    -- A default that its column refuses is found here, before anything is stored.
    Access.lift (checkDefaults columns)
    Catalog.putSchema engine.layout ⟨table, columns, primaryKey⟩
    let list := String.intercalate ", " names
    Access.log s!"Created table {table} ({list})"
    pure { columns := names.map .string }

/-- Removes the entries and the definition of each index. -/
def dropIndexes (engine : Engine) (table : String) : List StoredIndex → Access Unit
  | [] => pure ()
  | index :: rest => do
    let name ← Access.lift index.name.requireText
    let _ ← Index.clear engine.layout table name
    Catalog.deleteIndex engine.layout table name
    dropIndexes engine table rest

/-- Removes a table with its indexes and rows. -/
def dropTable (engine : Engine) (table : String) (ifExists : Bool) : Access QueryResult := do
  match ← Catalog.schema? engine.layout table with
  | none => if ifExists then pure {} else Access.fail (.tableNotFound table)
  | some _ =>
    let indexes ← Catalog.indexes engine.layout table
    -- The schema goes last, so a table whose removal is interrupted can be removed again.
    engine.dropIndexes table indexes
    let start ← Access.lift (engine.layout.rowPrefix? table)
    let n ← Index.removeAll start
    Catalog.deleteSchema engine.layout table
    Access.log s!"Dropped table {table} ({n} rows)"
    pure { affected := n }

/-- Creates an index, with an entry for each row that is already there. -/
def createIndex (engine : Engine) (index table column : String) (ifNotExists : Bool) :
    Access QueryResult := do
  let schema ← Catalog.requireSchema engine.layout table
  if !schema.hasColumn column then Access.fail (.columnNotFound column table)
  else
    match ← Catalog.index? engine.layout table index with
    | some _ =>
      if ifNotExists then pure { columns := [.string column] }
      else Access.fail (.indexExists index table)
    | none =>
      Catalog.putIndex engine.layout ⟨index, table, column⟩
      -- The index is defined before it is filled, so a fault in between leaves it incomplete.
      let rows ← engine.allRows table
      let n ← Index.backfill engine.layout table index column rows
      Access.log s!"Created index {index} on {table}({column}), {n} entries"
      pure { columns := [.string column], affected := n }

/-- Removes an index and its entries. -/
def dropIndex (engine : Engine) (index table : String) (ifExists : Bool) : Access QueryResult := do
  match ← Catalog.schema? engine.layout table with
  | none => if ifExists then pure {} else Access.fail (.tableNotFound table)
  | some _ =>
    match ← Catalog.index? engine.layout table index with
    | none => if ifExists then pure {} else Access.fail (.indexNotFound index table)
    | some _ =>
      let n ← Index.clear engine.layout table index
      Catalog.deleteIndex engine.layout table index
      Access.log s!"Dropped index {index} on {table} ({n} entries)"
      pure { affected := n }

end Engine

end TableStore
