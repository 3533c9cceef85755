import TableStore.Fault
import TableStore.Text.Case

/-!
# Column Types

A column is declared with a type name. Five names are types that values are
checked against; many synonyms, in any case, are replaced by one of the five
when a table is declared. Any other name is kept as it is and accepts every
value.

Coercion turns a value into the form in which a column of the type stores it,
and fails if the value does not fit. It changes the kind of a value in three
cases only: an integral float becomes an integer, an integer becomes a float,
and text becomes bytes.

## Main definitions

* `ColumnType`: The checked types.
* `ColumnType.ofName?`: The checked type that a name is.
* `canonicalTypeName`: The name that a declared name is replaced by.
* `Value.coerce`: The stored form of a value.
* `Value.tryCoerce`: The stored form of a value, or the value itself if it
  does not fit.
-/

namespace TableStore

/-- The types that values are checked against. -/
inductive ColumnType where
  | integer
  | text
  | float
  | boolean
  | blob
  deriving DecidableEq

namespace ColumnType

/-- The name of a type. -/
def name : ColumnType → String
  | integer => "INTEGER"
  | text => "TEXT"
  | float => "FLOAT"
  | boolean => "BOOLEAN"
  | blob => "BLOB"

/-- The checked type that a column's type name is. -/
def ofName? (s : String) : Option ColumnType :=
  if s = "INTEGER" then some integer
  else if s = "TEXT" then some text
  else if s = "FLOAT" then some float
  else if s = "BOOLEAN" then some boolean
  else if s = "BLOB" then some blob
  else none

/-- The type that a word in capitals stands for. -/
def ofSynonym? (s : String) : Option ColumnType :=
  if ["INTEGER", "INT", "BIGINT", "SMALLINT"].contains s then some integer
  else if ["VARCHAR", "CHAR", "STRING", "TEXT"].contains s then some text
  else if ["REAL", "DOUBLE", "FLOAT", "DECIMAL", "NUMERIC"].contains s then some float
  else if ["BOOLEAN", "BOOL"].contains s then some boolean
  else if ["BLOB", "BYTES", "BINARY"].contains s then some blob
  else none

end ColumnType

/-- The name that a declared type name is replaced by: that of the type it
    stands for in any case, or else itself. -/
def canonicalTypeName (token : String) : String :=
  match ColumnType.ofSynonym? (String.ofList (Text.toUpper token.toList)) with
  | some type => type.name
  | none => token

namespace Value

/-- The stored form of a value that is not null in a column of a checked
    type. -/
def coerceTo (type : ColumnType) (column : String) (v : Value) : Except Fault Value :=
  let mismatch : Except Fault Value := .error (typeMismatch column type.name v)
  match type, v with
  | .integer, int n => .ok (int n)
  | .integer, float d =>
    match d.toInt? with
    | some n => .ok (int n)
    | none => mismatch
  | .float, float d => .ok (float d)
  | .float, int n =>
    match Double.ofInt? n with
    | some d => .ok (float d)
    | none => .error .beyondDouble
  | .text, text s => .ok (text s)
  | .boolean, bool b => .ok (bool b)
  | .blob, bytes b => .ok (bytes b)
  | .blob, text s => .ok (bytes (Text.encode s))
  | _, _ => mismatch

/-- The stored form of a value in a column with the given type name. Null fits
    every column, and every value fits a type that is not checked. -/
def coerce (typeName column : String) (v : Value) : Except Fault Value :=
  match v with
  | null => .ok null
  | v =>
    match ColumnType.ofName? typeName with
    | some type => v.coerceTo type column
    | none => .ok v

/-- The stored form of a value, or the value itself if it does not fit. An
    integer beyond the range of doubles is still a fault. -/
def tryCoerce (typeName : String) (v : Value) : Except Fault Value :=
  match v.coerce typeName "?" with
  | .error (.typeMismatch _ _ _) => .ok v
  | r => r

end Value

end TableStore
