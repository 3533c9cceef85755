import TableStore.Key.Component
import TableStore.Key.IndexValue

/-!
# Key Layout

Where everything about a table is stored. All keys start with a common root,
then the table's name as a component, then a fixed tag:

* the schema of a table at `/schema`,
* its rows at `/rows/` and the row's id,
* the definition of an index at `/indexes/`, the index's name and `/meta`,
* the entries of an index at `/entries/`, the index's name, the value and the
  row's id.

Names, ids and values are components with their length in front, so keys built
from different parts never coincide, and all keys of one table, of its rows or
of one index share a prefix that nothing else has. Who asks a store for a key
builds it by the functions that refuse components without a place in a key.

## Main definitions

* `KeyLayout`: The root of all keys.
* `KeyLayout.schemaKey`, `rowKey`, `indexMetaKey`: The keys.
* `KeyLayout.tablePrefix`, `rowPrefix`, `indexMetaPrefix`, `indexPrefix`: What
  families of keys start with.
* `KeyLayout.schemaKey?`, `rowKey?`, `indexMetaKey?`, `rowPrefix?`,
  `indexMetaPrefix?`, `indexPrefix?`: The same for components that fit.
* `KeyLayout.indexValuePrefix`, `indexKey`: What the entries of an index for
  one value start with, and their keys.
* `KeyLayout.tableOfSchemaKey?`, `indexOfMetaKey?`: The names that keys were
  built from.
-/

namespace TableStore

/-- Where everything is stored: the root that all keys start with. -/
structure KeyLayout where
  root : Bytes
  deriving DecidableEq

namespace KeyLayout

/-- The root that keys have unless another one is set. -/
def defaultRoot : Bytes := Text.encode "_sql/tables/"

/-- The layout with a root, which must not be empty. -/
def ofRoot (root : Bytes) : Except Fault KeyLayout :=
  if root.isEmpty then .error .emptyRoot else .ok ⟨root⟩

/-- The text of a layout. -/
def describe (layout : KeyLayout) : String :=
  "KeyLayout(root=" ++ Text.quoteBytes layout.root ++ ")"

/-- The tag of a schema. -/
def schemaTag : Bytes := Text.encode "/schema"

/-- The tag of rows. -/
def rowsTag : Bytes := Text.encode "/rows/"

/-- The tag of index definitions. -/
def indexesTag : Bytes := Text.encode "/indexes/"

/-- The tag at the end of an index definition's key. -/
def metaTag : Bytes := Text.encode "/meta"

/-- The tag of index entries. -/
def entriesTag : Bytes := Text.encode "/entries/"

/-- What every key of a table starts with. -/
def tablePrefix (layout : KeyLayout) (table : String) : Bytes :=
  layout.root ++ Key.encodeName table

/-- The key of a table's schema. -/
def schemaKey (layout : KeyLayout) (table : String) : Bytes :=
  layout.tablePrefix table ++ schemaTag

/-- What every row key of a table starts with. -/
def rowPrefix (layout : KeyLayout) (table : String) : Bytes :=
  layout.tablePrefix table ++ rowsTag

/-- The key of the row with an id. -/
def rowKey (layout : KeyLayout) (table : String) (id : Bytes) : Bytes :=
  layout.rowPrefix table ++ Key.encodeComponent id

/-- What the key of every index definition of a table starts with. -/
def indexMetaPrefix (layout : KeyLayout) (table : String) : Bytes :=
  layout.tablePrefix table ++ indexesTag

/-- The key of an index definition. -/
def indexMetaKey (layout : KeyLayout) (table index : String) : Bytes :=
  layout.indexMetaPrefix table ++ Key.encodeName index ++ metaTag

/-- What every entry key of an index starts with. -/
def indexPrefix (layout : KeyLayout) (table index : String) : Bytes :=
  layout.tablePrefix table ++ entriesTag ++ Key.encodeName index

/-- The key of a table's schema, if the name fits. -/
def schemaKey? (layout : KeyLayout) (table : String) : Except Fault Bytes :=
  Key.ofComponents [Text.encode table] (layout.schemaKey table)

/-- What every row key of a table starts with, if the name fits. -/
def rowPrefix? (layout : KeyLayout) (table : String) : Except Fault Bytes :=
  Key.ofComponents [Text.encode table] (layout.rowPrefix table)

/-- The key of the row with an id, if the name and the id fit. -/
def rowKey? (layout : KeyLayout) (table : String) (id : Bytes) : Except Fault Bytes :=
  Key.ofComponents [Text.encode table, id] (layout.rowKey table id)

/-- What the key of every index definition of a table starts with, if the name
    fits. -/
def indexMetaPrefix? (layout : KeyLayout) (table : String) : Except Fault Bytes :=
  Key.ofComponents [Text.encode table] (layout.indexMetaPrefix table)

/-- The key of an index definition, if the names fit. -/
def indexMetaKey? (layout : KeyLayout) (table index : String) : Except Fault Bytes :=
  Key.ofComponents [Text.encode table, Text.encode index] (layout.indexMetaKey table index)

/-- What every entry key of an index starts with, if the names fit. -/
def indexPrefix? (layout : KeyLayout) (table index : String) : Except Fault Bytes :=
  Key.ofComponents [Text.encode table, Text.encode index] (layout.indexPrefix table index)

/-- What the entry keys of an index for one value start with. -/
def indexValuePrefix (layout : KeyLayout) (table index : String) (v : Value) :
    Except Fault Bytes := do
  let start ← layout.indexPrefix? table index
  let encoded ← Key.encodeIndexValue v
  Key.ofComponents [encoded] (start ++ Key.encodeComponent encoded)

/-- The key of the entry of an index for a value and the row with an id. -/
def indexKey (layout : KeyLayout) (table index : String) (v : Value) (id : Bytes) :
    Except Fault Bytes := do
  let start ← layout.indexValuePrefix table index v
  Key.ofComponents [id] (start ++ Key.encodeComponent id)

/-- The name in a key that consists of `start`, one name and `tag`, if the key
    has that form. The name has to be UTF-8. -/
def nameBetween (start tag key : Bytes) : Except Fault (Option String) :=
  if Bytes.carries start key then
    match Key.splitComponent (key.drop start.length) with
    | none => .ok none
    | some (name, rest) =>
      if rest = tag then
        -- A key of the form whose name is no text is a fault, and not a key of another form.
        match Text.decode? name with
        | some s => .ok (some s)
        | none => .error .malformedUtf8
      else .ok none
  else .ok none

/-- The name of the index whose definition a key of a table holds, if the name of
    the table fits. -/
def indexOfMetaKey? (layout : KeyLayout) (table : String) (key : Bytes) :
    Except Fault (Option String) := do
  let start ← layout.indexMetaPrefix? table
  nameBetween start metaTag key

/-- The name of the table whose schema a key holds. -/
def tableOfSchemaKey? (layout : KeyLayout) (key : Bytes) : Except Fault (Option String) :=
  nameBetween layout.root schemaTag key

end KeyLayout

end TableStore
