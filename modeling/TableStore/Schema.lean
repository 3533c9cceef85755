import TableStore.Schema.Stored

/-!
# Schemas

What a statement declares about a table: its columns in order, with their
types and defaults, and the column that is its primary key. An index is
declared by its name, its table and the one column it covers. Every name is a
text.

A default is stored as it was written, before any coercion, and bytes cannot
be a default.

## Main definitions

* `Column`, `TableSchema`: A table's columns and schema.
* `IndexDefinition`: An index.
* `TableSchema.stored`, `IndexDefinition.stored`: What the store holds of
  them.
* `TableSchema.toBytes`, `IndexDefinition.toBytes`: Their stored forms.
-/

namespace TableStore

/-- A column of a table. -/
structure Column where
  name : String
  typeName : String
  nullable : Bool := true
  primaryKey : Bool := false
  default : Value := .null
  deriving DecidableEq

/-- A table: its columns in order and the name of its primary key. -/
structure TableSchema where
  name : String
  columns : List Column
  primaryKey : Option String := none
  deriving DecidableEq

/-- An index over one column of a table. -/
structure IndexDefinition where
  name : String
  table : String
  column : String
  deriving DecidableEq

namespace Column

/-- What the store holds of a column. -/
def stored (column : Column) : StoredColumn where
  name := .string column.name
  typeName := .string column.typeName
  nullable := .bool column.nullable
  primaryKey := .bool column.primaryKey
  default := column.default.toJson

/-- Whether the default has a place in a stored schema. -/
def isStorable (column : Column) : Bool :=
  match column.default with
  | .bytes _ => false
  | _ => true

end Column

namespace TableSchema

/-- What the store holds of a schema. -/
def stored (schema : TableSchema) : StoredSchema where
  name := .string schema.name
  columns := schema.columns.map Column.stored
  primaryKey := (schema.primaryKey.map Json.string).getD .null

/-- The stored form of a schema. -/
def toBytes (schema : TableSchema) : Except Fault Bytes :=
  if !schema.columns.all Column.isStorable then .error .unstorableDefault
  else if !schema.columns.all fun column => column.default.hasText then .error .digitLimit
  else .ok (Text.encodeChars (Json.write .spaced 0 schema.stored.toJson))

end TableSchema

namespace IndexDefinition

/-- What the store holds of an index. -/
def stored (index : IndexDefinition) : StoredIndex where
  name := .string index.name
  table := .string index.table
  column := .string index.column

/-- The stored form of an index. -/
def toBytes (index : IndexDefinition) : Bytes :=
  Text.encodeChars (Json.write .spaced 0 index.stored.toJson)

end IndexDefinition

end TableStore
