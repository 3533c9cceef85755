import TableStore.Schema.Name

/-!
# Results as a JSON Document

Rows as one JSON object with the name of the table, the number of rows and the
rows themselves. Bytes are written as their text in base 64.

## Main definitions

* `resultDocument`: The JSON value of rows.
* `renderDocument`: Its text, on one line or indented.
-/

namespace TableStore

/-- A value in a result. -/
def plainJson : Value → Json
  | .bytes b => .string (String.ofList (Text.toBase64 b))
  | v => v.toJson

/-- The members of a row for the given fields. A field that the row does not
    have is null. -/
def pickFields (fields : List Json) (row : Row) : Except Fault Row := do
  let picked ← fields.mapM fun name => do
    let v ← Row.valueOf row name
    .ok (name, v)
  let picked ← Fields.ofList picked
  .ok picked.toMembers

/-- The JSON object of a row in a result. -/
def rowDocument (row : Row) : Json :=
  .object (row.map fun member => (member.1, plainJson member.2))

/-- The rows of a result, with only the given fields if there are any
    given. -/
def selectFields (rows : List Row) : Option (List Json) → Except Fault (List Row)
  | none => .ok rows
  | some fields => rows.mapM (pickFields fields)

/-- The JSON value of rows. -/
def resultDocument (table : String) (rows : List Row) : Json :=
  .object [("table", .string table), ("count", .int rows.length),
    ("records", .array (rows.map rowDocument))]

/-- The text of rows, on one line or indented. -/
def renderDocument (table : String) (rows : List Row) (fields : Option (List Json))
    (compact : Bool) : Except Fault String := do
  let rows ← selectFields rows fields
  if rows.all Row.hasText then
    .ok ((resultDocument table rows).toText (if compact then .compact else .indented))
  else .error .digitLimit

end TableStore
