import TableStore.Key.Layout
import TableStore.Schema
import TableStore.Store.Access

/-!
# The Catalog

Schemas and index definitions in the store. Nothing is remembered between
statements: what the catalog knows is what the store holds now, whether a
statement wrote it or not.

## Main definitions

* `Catalog.schema?`, `Catalog.requireSchema`: The schema of a table.
* `Catalog.putSchema`, `Catalog.deleteSchema`: Changes to a schema.
* `Catalog.tables`: The names of all tables.
* `Catalog.index?`, `Catalog.indexes`: One index of a table, and all of them.
* `Catalog.indexedColumns`: The columns that the indexes of a table cover.
* `Catalog.putIndex`, `Catalog.deleteIndex`: Changes to an index.
-/

namespace TableStore

namespace Catalog

/-- The schema of a table, if the table exists. -/
def schema? (layout : KeyLayout) (table : String) : Access (Option StoredSchema) := do
  let key ← Access.lift (layout.schemaKey? table)
  match ← Access.fetch key with
  | none => pure none
  | some data => some <$> Access.lift (StoredSchema.ofBytes data)

/-- The schema of a table that has to exist. -/
def requireSchema (layout : KeyLayout) (table : String) : Access StoredSchema := do
  match ← schema? layout table with
  | none => Access.fail (.tableNotFound table)
  | some schema => pure schema

/-- Stores a schema under the name of its table. -/
def putSchema (layout : KeyLayout) (schema : TableSchema) : Access Unit := do
  let key ← Access.lift (layout.schemaKey? schema.name)
  let data ← Access.lift schema.toBytes
  Access.store key data

/-- Removes the schema of a table. -/
def deleteSchema (layout : KeyLayout) (table : String) : Access Unit := do
  let key ← Access.lift (layout.schemaKey? table)
  Access.remove key

/-- The names in those of the keys that have one. -/
def namesOf (name? : Bytes → Except Fault (Option String)) : List Entry → Except Fault (List String)
  | [] => .ok []
  | (key, _) :: rest => do
    let name ← name? key
    let names ← namesOf name? rest
    .ok (name.toList ++ names)

/-- The names of all tables that have a schema, in the order of their keys.
    This reads everything under the root. -/
def tables (layout : KeyLayout) : Access (List String) := do
  let found ← Access.entries layout.root
  Access.lift (namesOf layout.tableOfSchemaKey? found)

/-- The definition of an index, if the table has it. -/
def index? (layout : KeyLayout) (table index : String) : Access (Option StoredIndex) := do
  let key ← Access.lift (layout.indexMetaKey? table index)
  match ← Access.fetch key with
  | none => pure none
  | some data => some <$> Access.lift (StoredIndex.ofBytes data)

/-- The definitions in those of the entries whose key is that of one. -/
def definitionsOf (layout : KeyLayout) (table : String) :
    List Entry → Except Fault (List StoredIndex)
  | [] => .ok []
  | (key, data) :: rest => do
    match ← layout.indexOfMetaKey? table key with
    | none => definitionsOf layout table rest
    | some _ =>
      let index ← StoredIndex.ofBytes data
      let others ← definitionsOf layout table rest
      .ok (index :: others)

/-- Whether the names of indexes can be ordered. A single one always can. -/
def haveOrder : List StoredIndex → Bool
  | [] => true
  | first :: rest => rest.all fun index => first.name.isOrderedWith index.name

/-- Indexes in the order of their names. -/
def sortByName (found : List StoredIndex) : Except Fault (List StoredIndex) :=
  if haveOrder found then .ok (found.mergeSort fun a b => !b.name.isBefore a.name)
  else .error .misfitMember

/-- The indexes of a table in the order of their names. -/
def indexes (layout : KeyLayout) (table : String) : Access (List StoredIndex) := do
  let start ← Access.lift (layout.indexMetaPrefix? table)
  let found ← Access.entries start
  Access.lift (definitionsOf layout table found >>= sortByName)

/-- The columns that the indexes of a table cover, by the names of the
    indexes. -/
def indexedColumns (layout : KeyLayout) (table : String) : Access (Fields Json) := do
  let all ← indexes layout table
  Access.lift (Fields.ofList (all.map fun index => (index.name, index.column)))

/-- Stores the definition of an index. -/
def putIndex (layout : KeyLayout) (index : IndexDefinition) : Access Unit := do
  let key ← Access.lift (layout.indexMetaKey? index.table index.name)
  Access.store key index.toBytes

/-- Removes the definition of an index. -/
def deleteIndex (layout : KeyLayout) (table index : String) : Access Unit := do
  let key ← Access.lift (layout.indexMetaKey? table index)
  Access.remove key

end Catalog

end TableStore
