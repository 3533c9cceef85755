import TableStore.Json.Printer
import TableStore.Json.Reader
import TableStore.Text.Base64

/-!
# Rows

A row is its named values in the order of the columns, followed by the member
that holds the row's id. Rows are stored as JSON objects. Bytes have no form
of their own in JSON, so they are written as an object with a single reserved
member that holds their text in base 64. What else is nested in a stored row
is kept as it is, and nothing in it is read as bytes.

## Main definitions

* `Row`: A row.
* `rowIdMember`: The name of the member that holds the row's id.
* `Value.toJson`, `Value.ofJson`: The stored form of a value.
* `Row.toBytes`, `Row.ofBytes`: The stored form of a row.
-/

namespace TableStore

/-- A row: its values by name, in order. -/
abbrev Row := Members Value

/-- The name of the member that holds a row's id. -/
def rowIdMember : String := "_id"

/-- The name of the single member that marks bytes in JSON. -/
def blobMember : String := "__blob__"

namespace Value

/-- The stored form of a value. -/
def toJson : Value → Json
  | null => .null
  | bool b => .bool b
  | int n => .int n
  | float d => .float d
  | text s => .string s
  | bytes b => .object [(blobMember, .string (String.ofList (Text.toBase64 b)))]
  | array items => .array items
  | object members => .object members

/-- The bytes that the reserved member of an object holds. -/
def ofBlob : Json → Except Fault Value
  | .string s =>
    if s.toList.all fun c => c.toNat < 128 then
      match Text.ofBase64? s.toList with
      | some b => .ok (bytes b)
      | none => .error .malformedBase64
    else .error .base64NotAscii
  | _ => .error .base64NotText

/-- The value of a stored form: bytes if it is an object that has the reserved
    member, and else the JSON value itself. -/
def ofJson : Json → Except Fault Value
  | .object members =>
    match Members.get? members blobMember with
    | some j => ofBlob j
    | none => .ok (object members)
  | j => .ok (ofPlain j)

end Value

namespace Row

/-- The value of a column, which is null if the row does not have the
    column. -/
def value (row : Row) (column : String) : Value :=
  (Members.get? row column).getD .null

/-- Whether every value of the row has a text. -/
def hasText (row : Row) : Bool :=
  row.all fun member => member.2.hasText

/-- The JSON object of a row. -/
def toJson (row : Row) : Json :=
  .object (row.map fun member => (member.1, member.2.toJson))

/-- The stored form of a row. -/
def toBytes (row : Row) : Except Fault Bytes :=
  if hasText row then .ok (Text.encodeChars (Json.write .spaced 0 (toJson row)))
  else .error .digitLimit

/-- The row of a JSON value. -/
def ofJson : Json → Except Fault Row
  | .object members => members.mapM fun member => do
    let v ← Value.ofJson member.2
    .ok (member.1, v)
  | _ => .error .notAnObject

/-- The row of stored bytes. -/
def ofBytes (data : Bytes) : Except Fault Row := do
  ofJson (← Json.ofBytes data)

end Row

end TableStore
