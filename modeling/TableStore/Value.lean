import TableStore.Json.Display
import TableStore.Members
import TableStore.Text.Utf8

/-!
# Values

The values that a row holds and a literal denotes. Truth values are not
numbers, and text is not bytes; integers are unbounded. No literal denotes an
array or an object, but a stored row may hold one, which is then carried along
as the JSON value it is.

A value has two texts. Its plain text is what a primary key, a pattern or a
table of results shows; its quoted text is what a message shows. An integer
has a text only up to a fixed number of digits, which `hasText` decides.

## Main definitions

* `Value`: A value.
* `Value.ofPlain`: The value that a JSON value is.
* `Value.typeName`: The name of a value's type in messages.
* `Value.toText`: The plain text of a value.
* `Value.quoted`: The text of a value in messages.
-/

namespace TableStore

/-- A value of a row or a literal. -/
inductive Value where
  | null
  | bool (b : Bool)
  | int (n : Int)
  | float (d : Double)
  | text (s : String)
  | bytes (b : Bytes)
  | array (items : List Json)
  | object (members : Members Json)
  deriving DecidableEq

namespace Value

/-- The value that a JSON value is, where no object stands for bytes. -/
def ofPlain : Json → Value
  | .null => null
  | .bool b => bool b
  | .int n => int n
  | .float d => float d
  | .string s => text s
  | .array items => array items
  | .object members => object members

/-- The name of a value's type. Values of types that cannot be compared are
    ordered by these names, and messages show them. -/
def typeName : Value → String
  | null => "NoneType"
  | bool _ => "bool"
  | int _ => "int"
  | float _ => "float"
  | text _ => "str"
  | bytes _ => "bytes"
  | array _ => "list"
  | object _ => "dict"

/-- Whether the value has a text, which an integer beyond the digit limit has
    not. -/
def hasText : Value → Bool
  | int n => Text.withinDigitLimit n
  | array items => Json.itemsHaveText items
  | object members => Json.membersHaveText members
  | _ => true

/-- The plain text of a value. -/
def toText : Value → String
  | null => "None"
  | bool b => if b then "True" else "False"
  | int n => toString n
  | float d => d.text
  | text s => s
  | bytes b => Text.quoteBytes b
  | array items => String.ofList (Json.shown (.array items))
  | object members => String.ofList (Json.shown (.object members))

/-- The text of a value in messages, where text is quoted. -/
def quoted : Value → String
  | text s => Text.quoteText s
  | v => v.toText

/-- Whether the value is null. -/
def isNull : Value → Bool
  | null => true
  | _ => false

/-- Whether the value is the number that has no place in the order of
    numbers. -/
def isNaN : Value → Bool
  | float .nan => true
  | _ => false

end Value

end TableStore
