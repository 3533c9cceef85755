import TableStore.Double.Decimal
import TableStore.Json
import TableStore.Text.Quoted

/-!
# JSON Text

The text of a JSON value in plain ASCII: every other character of a string is
written by number, with a pair of surrogates beyond U+FFFF. A style says what
stands between items and after names, and whether the items of an array or an
object stand on lines of their own.

## Main definitions

* `JsonStyle`: How a JSON text is laid out.
* `JsonStyle.compact`, `JsonStyle.spaced`, `JsonStyle.indented`: The styles in
  use.
* `writeString`: A string in JSON.
* `Json.write`: The text of a JSON value.
-/

namespace TableStore

/-- How a JSON text is laid out. With an indentation the items of an array or
    an object stand on lines of their own, indented by that much per level. -/
structure JsonStyle where
  separator : List Char
  colon : List Char
  indentation : Option Nat

namespace JsonStyle

/-- No blanks at all. -/
def compact : JsonStyle := ⟨[','], [':'], none⟩

/-- One line, with a blank after each comma and colon. -/
def spaced : JsonStyle := ⟨[',', ' '], [':', ' '], none⟩

/-- Items on lines of their own, indented by two blanks per level. -/
def indented : JsonStyle := ⟨[','], [':', ' '], some 2⟩

/-- The line break before an item at a level, if items have lines of their
    own. -/
def lineBreak (style : JsonStyle) (level : Nat) : List Char :=
  match style.indentation with
  | none => []
  | some width => '\n' :: List.replicate (width * level) ' '

end JsonStyle

/-- A unit of sixteen bits by number. -/
def writeUnit (n : Nat) : List Char :=
  '\\' :: 'u' :: Text.hexDigits 4 n

/-- A character inside a JSON string. -/
def writeChar (c : Char) : List Char :=
  let n := c.toNat
  if c == '"' then ['\\', '"']
  else if c == '\\' then ['\\', '\\']
  else if n == 10 then ['\\', 'n']
  else if n == 13 then ['\\', 'r']
  else if n == 9 then ['\\', 't']
  else if n == 12 then ['\\', 'f']
  else if n == 8 then ['\\', 'b']
  else if 32 ≤ n && n < 127 then [c]
  else if n < 0x10000 then writeUnit n
  else
    writeUnit (0xD800 + (n - 0x10000) / 0x400) ++ writeUnit (0xDC00 + (n - 0x10000) % 0x400)

/-- A string in JSON. -/
def writeString (s : String) : List Char :=
  '"' :: s.toList.flatMap writeChar ++ ['"']

namespace Json

mutual

/-- The text of a JSON value whose items are at the next level after
    `level`. -/
def write (style : JsonStyle) (level : Nat) : Json → List Char
  | null => ['n', 'u', 'l', 'l']
  | bool b => if b then ['t', 'r', 'u', 'e'] else ['f', 'a', 'l', 's', 'e']
  | int n => (toString n).toList
  | float d => (d.textWith "Infinity" "NaN").toList
  | string s => writeString s
  | array [] => ['[', ']']
  | array (item :: items) =>
    '[' :: style.lineBreak (level + 1) ++ write style (level + 1) item
      ++ writeItems style (level + 1) items ++ style.lineBreak level ++ [']']
  | object [] => ['{', '}']
  | object ((name, item) :: members) =>
    '{' :: style.lineBreak (level + 1) ++ writeString name ++ style.colon
      ++ write style (level + 1) item ++ writeMembers style (level + 1) members
      ++ style.lineBreak level ++ ['}']

/-- The items of an array after the first, each with the separator before
    it. -/
def writeItems (style : JsonStyle) (level : Nat) : List Json → List Char
  | [] => []
  | item :: items =>
    style.separator ++ style.lineBreak level ++ write style level item
      ++ writeItems style level items

/-- The members of an object after the first, each with the separator before
    it. -/
def writeMembers (style : JsonStyle) (level : Nat) : List (String × Json) → List Char
  | [] => []
  | (name, item) :: members =>
    style.separator ++ style.lineBreak level ++ writeString name ++ style.colon
      ++ write style level item ++ writeMembers style level members

end

/-- The text of a JSON value. -/
def toText (style : JsonStyle) (j : Json) : String :=
  String.ofList (write style 0 j)

end Json

end TableStore
