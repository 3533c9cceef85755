import TableStore.Schema.Name
import TableStore.Value.ColumnType

/-!
# Stored Schemas

Schemas and index definitions as the store holds them. Each is a JSON object,
and reading one asks for its required members only: the name of a schema, the
name and the type of a column, and the three names of an index. What a member
is, is not checked. A type that is not one of the checked type names accepts
every value, and a default is the JSON value that it is.

## Main definitions

* `StoredColumn`, `StoredSchema`, `StoredIndex`: What the store holds.
* `StoredSchema.toJson`, `StoredSchema.ofBytes`: The stored form of a schema.
* `StoredIndex.toJson`, `StoredIndex.ofBytes`: The stored form of an index.
* `StoredSchema.column?`: The column that statements mean by a text.
-/

namespace TableStore

/-- A column as a stored schema describes it. -/
structure StoredColumn where
  name : Json
  typeName : Json
  nullable : Json := .bool true
  primaryKey : Json := .bool false
  default : Json := .null
  deriving DecidableEq

/-- A schema as the store holds it. -/
structure StoredSchema where
  name : Json
  columns : List StoredColumn
  primaryKey : Json := .null
  deriving DecidableEq

/-- An index definition as the store holds it. -/
structure StoredIndex where
  name : Json
  table : Json
  column : Json
  deriving DecidableEq

/-- The members of an object. -/
def requireObject : Json → Except Fault (Members Json)
  | .object members => .ok members
  | _ => .error .misfitMember

/-- The member of an object. -/
def requireMember (members : Members Json) (name : String) : Except Fault Json :=
  match Members.get? members name with
  | some j => .ok j
  | none => .error (.missingMember name)

/-- The items of an array. A text or an object without items counts as an
    empty array. -/
def requireArray : Json → Except Fault (List Json)
  | .array items => .ok items
  | .object [] => .ok []
  | .string s => if s.isEmpty then .ok [] else .error .misfitMember
  | _ => .error .misfitMember

namespace StoredColumn

/-- The JSON object of a column. -/
def toJson (column : StoredColumn) : Json :=
  .object [("name", column.name), ("type", column.typeName), ("nullable", column.nullable),
    ("primary_key", column.primaryKey), ("default", column.default)]

/-- The column of a JSON value. -/
def ofJson (j : Json) : Except Fault StoredColumn := do
  let members ← requireObject j
  let name ← requireMember members "name"
  let typeName ← requireMember members "type"
  .ok {
    name := name
    typeName := typeName
    nullable := (Members.get? members "nullable").getD (.bool true)
    primaryKey := (Members.get? members "primary_key").getD (.bool false)
    default := (Members.get? members "default").getD .null }

/-- The stored form of a value in the column. -/
def coerce (column : StoredColumn) (v : Value) : Except Fault Value :=
  match column.typeName with
  | .string typeName => v.coerce typeName column.name.nameText
  | _ => .ok v

/-- The stored form of a value in the column, or the value itself if it does
    not fit. -/
def tryCoerce (column : StoredColumn) (v : Value) : Except Fault Value :=
  match column.typeName with
  | .string typeName => v.tryCoerce typeName
  | _ => .ok v

end StoredColumn

namespace StoredSchema

/-- The names of the columns in order. -/
def columnNames (schema : StoredSchema) : List Json :=
  schema.columns.map StoredColumn.name

/-- The first column whose name is a text. -/
def column? (schema : StoredSchema) (name : String) : Option StoredColumn :=
  schema.columns.find? fun column => column.name = .string name

/-- Whether there is a column whose name is a text. -/
def hasColumn (schema : StoredSchema) (name : String) : Bool :=
  (schema.column? name).isSome

/-- Whether there is a column whose name equals a name. NaN equals nothing. -/
def hasColumnNamed (schema : StoredSchema) (name : Json) : Bool :=
  match name.nameKey? with
  | none => false
  | some (.number .undefined) => false
  | some key => schema.columns.any fun column => column.name.nameKey? = some key

/-- The JSON object of a schema. -/
def toJson (schema : StoredSchema) : Json :=
  .object [("name", schema.name), ("columns", .array (schema.columns.map StoredColumn.toJson)),
    ("primary_key", schema.primaryKey)]

/-- The schema of a JSON value. -/
def ofJson (j : Json) : Except Fault StoredSchema := do
  let members ← requireObject j
  let name ← requireMember members "name"
  let items ← match Members.get? members "columns" with
    | none => .ok []
    | some j => requireArray j
  let columns ← items.mapM StoredColumn.ofJson
  .ok ⟨name, columns, (Members.get? members "primary_key").getD .null⟩

/-- The schema of stored bytes. -/
def ofBytes (data : Bytes) : Except Fault StoredSchema := do
  ofJson (← Json.ofBytes data)

end StoredSchema

namespace StoredIndex

/-- Whether the columns of indexes all have names. -/
def haveNames (indexes : List StoredIndex) : Bool :=
  indexes.all fun index => index.column.nameKey?.isSome

/-- The JSON object of an index. -/
def toJson (index : StoredIndex) : Json :=
  .object [("name", index.name), ("table", index.table), ("column", index.column)]

/-- The index of a JSON value. -/
def ofJson (j : Json) : Except Fault StoredIndex := do
  let members ← requireObject j
  let name ← requireMember members "name"
  let table ← requireMember members "table"
  let column ← requireMember members "column"
  .ok ⟨name, table, column⟩

/-- The index of stored bytes. -/
def ofBytes (data : Bytes) : Except Fault StoredIndex := do
  ofJson (← Json.ofBytes data)

end StoredIndex

end TableStore
