import TableStore.Fault
import TableStore.Text.Blank
import TableStore.Text.Case
import TableStore.Value.Literal

/-!
# Statement Text

A statement is read with the contents of its quoted literals hidden, so that a
keyword, a comma or a parenthesis inside a literal is never taken for part of
the statement. Hiding does not throw anything away: each character stays
together with the mark whether it is hidden, and a piece that turns out to be
a literal is read from its characters.

A literal runs from a quote to the next quote of the same kind, where a quote
that is doubled or has a backslash before it does not count.

## Main definitions

* `Cell`: A character of a statement, with its mark.
* `Cell.visible`: What the character is read as.
* `hideLiterals`: A text with the contents of its literals hidden.
* `splitAtCommas`: The pieces between commas outside parentheses.
-/

namespace TableStore

/-- A character of a statement, and whether it is hidden inside a literal. -/
structure Cell where
  char : Char
  hidden : Bool
  deriving DecidableEq

namespace Cell

/-- What a character is read as; hidden characters all look alike. -/
def visible (c : Cell) : Char :=
  if c.hidden then '#' else c.char

/-- Whether the cell separates words. -/
def isBlank (c : Cell) : Bool :=
  Text.isBlank c.visible

/-- Whether the cell can be part of a name. -/
def isWordChar (c : Cell) : Bool :=
  Text.isWordChar c.visible

/-- Whether the cell is read as a character. -/
def shows (c : Cell) (a : Char) : Bool :=
  c.visible == a

end Cell

/-- The characters of a piece of a statement. -/
def cellChars (s : List Cell) : List Char :=
  s.map Cell.char

/-- The text of a piece of a statement. -/
def cellText (s : List Cell) : String :=
  String.ofList (cellChars s)

/-- The text that a piece of a statement is read as. -/
def visibleText (s : List Cell) : String :=
  String.ofList (s.map Cell.visible)

/-- A piece of a statement without the blanks at its two ends. -/
def trimCells (s : List Cell) : List Cell :=
  Text.trimBy Cell.isBlank s

/-- Marks the characters of a text, where `quote` is the quote of the literal
    that the text starts inside of. There is no marking if the text ends
    inside a literal. -/
def markFrom : (quote : Option Char) → List Char → Option (List Cell)
  | none, [] => some []
  | some _, [] => none
  | none, c :: s =>
    (markFrom (if isQuote c then some c else none) s).map (⟨c, false⟩ :: ·)
  | some q, [c] =>
    if c == q then some [⟨c, false⟩] else none
  | some q, c :: d :: s =>
    -- Inside a literal a quote is hidden if it is doubled or stands after a backslash.
    if (c == '\\' || c == q) && d == q then
      (markFrom (some q) s).map fun cells => ⟨c, true⟩ :: ⟨d, true⟩ :: cells
    else if c == q then (markFrom none (d :: s)).map (⟨c, false⟩ :: ·)
    else (markFrom (some q) (d :: s)).map (⟨c, true⟩ :: ·)

/-- The text with the contents of its literals hidden, unless one of them has
    no end. -/
def hideLiterals (s : List Char) : Option (List Cell) :=
  markFrom none s

/-- The pieces between the commas that are outside of parentheses, where
    `depth` parentheses are open at the start. There are none if the
    parentheses do not match. -/
def piecesWithin : (depth : Nat) → List Cell → Option (List (List Cell))
  | 0, [] => some [[]]
  | _ + 1, [] => none
  | depth, c :: s =>
    if c.shows '(' then (piecesWithin (depth + 1) s).map (Text.consWord c)
    else if c.shows ')' then
      match depth with
      | 0 => none
      | depth + 1 => (piecesWithin depth s).map (Text.consWord c)
    else if c.shows ',' && depth == 0 then (piecesWithin 0 s).map ([] :: ·)
    else (piecesWithin depth s).map (Text.consWord c)

/-- The pieces between the commas that are outside of parentheses, without
    outer blanks. -/
def splitAtCommas (s : List Cell) : Except Fault (List (List Cell)) :=
  match piecesWithin 0 s with
  | some pieces => .ok (pieces.map trimCells)
  | none => .error (.parse (.unbalancedParentheses (cellText s)))

end TableStore
