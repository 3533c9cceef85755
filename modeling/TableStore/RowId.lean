import TableStore.Fault
import TableStore.Members

/-!
# Row Ids

A row is stored under its id. A row whose primary key has a value takes its id
from the text of that value; the others draw one from an id source. A source
either counts, for each table on its own and perhaps padded with zeros, or
draws ids of 32 hexadecimal digits that do not repeat, or is supplied by the
user and gives any answers at all.

The id is kept in the row as well, where a statement on a table that declares a
column of that name may change it. An id read from a row is therefore a value
of any kind, and only text and bytes can be part of a key.

## Main definitions

* `IdSource`: A source of ids.
* `IdSource.next`: The next id for a table, and the source after it.
* `RowId.toKey`: The bytes of an id in a key.
* `RowId.toEntry`: The bytes of an id as the value of an index entry.
-/

namespace TableStore

/-- A source of row ids. -/
inductive IdSource where
  /-- Counts from `start` for each table. `used` holds the next number of each
      table that has drawn one. -/
  | counter (start : Int) (width : Int) (used : Members Int)
  /-- Draws ids that look random; `drawn` counts them. -/
  | random (drawn : Nat)
  /-- Gives the answers of the user's own source; `drawn` counts them. -/
  | supplied (answer : Nat → Except Fault String) (drawn : Nat)

namespace IdSource

/-- Counts from a number, padding ids to a width. -/
def counting (start width : Int) : IdSource := counter start width []

/-- Draws random ids. -/
def drawing : IdSource := random 0

/-- The digits of a number, padded with zeros to a width that counts the sign
    as well. -/
def paddedText (width n : Int) : String :=
  let digits := Nat.toDigits 10 n.natAbs
  let sign := if n < 0 then ['-'] else []
  let padding := width.toNat - (sign.length + digits.length)
  String.ofList (sign ++ List.replicate padding '0' ++ digits)

/-- How many ids differ outside the digits that are fixed. -/
def idSpace : Nat := Nat.pow 2 122

/-- A number of 122 bits that has not been drawn before. The factor is odd, so
    no number comes twice before all of them have come. -/
def scattered (drawn : Nat) : Nat :=
  (drawn * 0x2545F4914F6CDD1D9E3779B97F4A7C15 + 0x1B873593CC9E2D51A5A5A5A5) % idSpace

/-- An id of 32 hexadecimal digits, of which two are fixed in part. -/
def randomText (drawn : Nat) : String :=
  let n := scattered drawn
  String.ofList (Text.hexDigits 12 (n / Nat.pow 2 74) ++ '4' ::
    (Text.hexDigits 3 (n / Nat.pow 2 62 % 4096)
      ++ Text.hexDigits 16 (Nat.pow 2 63 + n % Nat.pow 2 62)))

/-- The next id for a table, and the source after it. -/
def next (table : String) : IdSource → Except Fault String × IdSource
  | counter start width used =>
    let n := (Members.get? used table).getD start
    let id := if Text.withinDigitLimit n then .ok (paddedText width n) else .error .digitLimit
    (id, counter start width (Members.set used table (n + 1)))
  | random drawn => (.ok (randomText drawn), random (drawn + 1))
  | supplied answer drawn => (answer drawn, supplied answer (drawn + 1))

end IdSource

namespace RowId

/-- The bytes of an id in a key. -/
def toKey : Value → Except Fault Bytes
  | .text s => .ok (Text.encode s)
  | .bytes b => .ok b
  | _ => .error .unusableRowId

/-- The bytes of an id as the value of an index entry, which has to be
    text. -/
def toEntry : Value → Except Fault Bytes
  | .text s => .ok (Text.encode s)
  | .bytes _ => .error .rowIdNotText
  | _ => .error .unusableRowId

end RowId

end TableStore
