import TableStore.Row

/-!
# Results as a Table

Rows in a compact text: the name of the table, the number of rows in brackets,
the names of the columns in braces, a colon, and then the rows, separated by
semicolons, with their cells separated by commas. A cell whose text has a
comma, a semicolon or a line feed is put in double quotes as it is.

## Main definitions

* `cellOf`: The text of a cell.
* `renderTable`: The text of rows.
-/

namespace TableStore

/-- The plain text of a value in a cell. -/
def plainCell : Value → List Char
  | .null => []
  | .bool b => (if b then "true" else "false").toList
  | .bytes b => Text.toBase64 b
  | v => v.toText.toList

/-- Whether the text of a cell would be taken apart. -/
def needsQuotes (s : List Char) : Bool :=
  s.any fun c => c == ',' || c == ';' || c == '\n'

/-- The text of a cell, in quotes if it would be taken apart. -/
def cellOf (v : Value) : List Char :=
  let s := plainCell v
  if needsQuotes s then '"' :: s ++ ['"'] else s

/-- Texts with a separator between them. -/
def joinWith (separator : Char) : List (List Char) → List Char
  | [] => []
  | [s] => s
  | s :: t :: rest => s ++ separator :: joinWith separator (t :: rest)

/-- The cells of a row for the given fields. A field that the row does not have
    is empty. -/
def renderRow (fields : List String) (row : Row) : List Char :=
  joinWith ',' (fields.map fun name => cellOf (Row.value row name))

/-- What stands before the rows: the table, their number and the fields. -/
def tableHeader (table : String) (count : Nat) (fields : List String) : List Char :=
  table.toList ++ '[' :: Nat.toDigits 10 count ++ ']' :: '\x7b' ::
    joinWith ',' (fields.map String.toList) ++ ['\x7d', ':']

/-- Whether all cells of rows have a text. -/
def fieldsHaveText (rows : List Row) (fields : List String) : Bool :=
  rows.all fun row => fields.all fun name => (Row.value row name).hasText

/-- The text of rows. Without given fields those of the first row are
    taken. -/
def renderTable (table : String) (rows : List Row) (fields : Option (List String)) :
    Except Fault String :=
  match rows with
  | [] => .ok (String.ofList (tableHeader table 0 (fields.getD [])))
  | first :: _ =>
    let fields := fields.getD (Members.names first)
    if fieldsHaveText rows fields then
      .ok (String.ofList (tableHeader table rows.length fields
        ++ joinWith ';' (rows.map (renderRow fields))))
    else .error .digitLimit

end TableStore
