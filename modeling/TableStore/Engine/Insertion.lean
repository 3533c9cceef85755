import TableStore.Engine.Definition

/-!
# Executing Insertions

A new row is put together from the values that a statement supplies and the
defaults of the other columns, under the names that the schema gives the
columns. It is stored under the text of its primary key, or, if it has none,
under the first id of the source that no row has. As many draws as there are
keys, and one more, are enough when the source does not repeat itself.

## Main definitions

* `buildRow`: The values that an insertion describes.
* `primaryValue?`: The value of the primary key among them.
* `Engine.newRowId`: The id of a new row.
* `Engine.fileRow`: Stores a new row.
* `Engine.insert`: The statement.
-/

namespace TableStore

/-- Whether the named columns all exist. -/
def checkColumns (schema : StoredSchema) (table : String) : List Json → Except Fault Unit
  | [] => .ok ()
  | name :: rest =>
    if schema.hasColumnNamed name then checkColumns schema table rest
    else .error (.columnNotFound name.nameText table)

/-- The values of the columns: those supplied, and the defaults of the others,
    all in the form of their columns. -/
def buildRow (supplied : Fields Value) :
    Fields Value → List StoredColumn → Except Fault (Fields Value)
  | row, [] => .ok row
  | row, column :: rest => do
    let given ← supplied.find column.name
    let v ← column.coerce (given.getD (Value.ofPlain column.default))
    let row ← row.give column.name v
    buildRow supplied row rest

/-- The value of the primary key of a row, if there is one. -/
def primaryValue? (schema : StoredSchema) (row : Fields Value) : Except Fault (Option Value) :=
  match schema.primaryKey with
  | .null => .ok none
  | name => do
    let v ← row.find name
    .ok (v.filter fun v => !v.isNull)

namespace Engine

/-- Draws ids until one is free, at most `draws` times. -/
def freeId (engine : Engine) (table : String) : (draws : Nat) → Access String
  | 0 => Access.fail .idsExhausted
  | draws + 1 => do
    let id ← Access.drawId table
    let key ← Access.lift (engine.layout.rowKey? table (Text.encode id))
    match ← Access.fetch key with
    | none => pure id
    | some _ => freeId engine table draws

/-- The id of a new row with the given primary key. -/
def newRowId (engine : Engine) (table : String) (key : Option Value) : Access String := do
  match key with
  | some v =>
    if !v.hasText then Access.fail .digitLimit
    else
      let id := v.toText
      let key ← Access.lift (engine.layout.rowKey? table (Text.encode id))
      match ← Access.fetch key with
      | some _ => Access.fail (.duplicateKey table id)
      | none => pure id
  | none =>
    -- Each key takes at most one id, so one draw more than there are keys finds a free one
    -- if the draws are all different.
    let n ← Access.keyCount
    engine.freeId table (n + 1)

/-- Adds a new row to each index. -/
def addEntries (engine : Engine) (table : String) (row : Fields Value) (id : String) :
    List StoredIndex → Access Unit :=
  Access.forList fun index => do
    let v ← Access.lift (row.find index.column)
    Index.moveStored engine.layout table index .null (v.getD .null) (.text id)

/-- Stores a new row, and returns its values and its id. -/
def fileRow (engine : Engine) (table : String) (columns : Option (List String))
    (values : List Value) : Access (Fields Value × String) := do
  let schema ← Catalog.requireSchema engine.layout table
  let columns := (columns.map fun names => names.map Json.string).getD schema.columnNames
  if columns.length ≠ values.length then
    Access.fail (.arityMismatch columns.length values.length)
  else
    let supplied ← Access.lift (Fields.ofList (columns.zip values))
    Access.lift (checkColumns schema table supplied.names)
    let row ← Access.lift (buildRow supplied [] schema.columns)
    let v ← Access.lift (primaryValue? schema row)
    -- The id is drawn or checked last, when the row is known to fit the schema.
    let id ← engine.newRowId table v
    let row := row.set (.string rowIdMember) (.text rowIdMember) (.text id)
    let key ← Access.lift (engine.layout.rowKey? table (Text.encode id))
    let data ← Access.lift (Row.toBytes row.toMembers)
    Access.store key data
    pure (row, id)

/-- Inserts a row. -/
def insert (engine : Engine) (table : String) (columns : Option (List String))
    (values : List Value) : Access QueryResult := do
  let (row, id) ← engine.fileRow table columns values
  let indexes ← Catalog.indexes engine.layout table
  engine.addEntries table row id indexes
  pure { affected := 1 }

end Engine

end TableStore
