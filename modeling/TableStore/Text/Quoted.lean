import TableStore.Bytes
import TableStore.Text.PrintableTable
import TableStore.Text.Word

/-!
# Quoted Text

Messages show a text or a byte string as a quoted literal. The literal is
written in single quotes, or in double quotes if the content has a single
quote and no double one. Backslash, the quote in use and the three common
control characters have short escapes; every other character without a
printed form is shown by its number in hexadecimal.

## Main definitions

* `hexDigits`: A number in a fixed count of hexadecimal digits.
* `quoteText`: The literal of a text.
* `quoteBytes`: The literal of a byte string.
-/

namespace TableStore

namespace Text

/-- The last `width` hexadecimal digits of a number. -/
def hexDigits : (width : Nat) → Nat → List Char
  | 0, _ => []
  | width + 1, n => hexDigits width (n / 16) ++ [Nat.digitChar (n % 16)]

/-- Whether a character has a printed form. -/
def isPrintable (c : Char) : Bool :=
  let n := c.toNat
  if n < 128 then 32 ≤ n && n < 127 else !inRanges unprintableRanges n

/-- The quote that a literal is written in. -/
def quoteFor (hasSingle hasDouble : Bool) : Char :=
  if hasSingle && !hasDouble then '"' else '\''

/-- The escape of a control character that has a short one. -/
def shortEscape? (n : Nat) : Option (List Char) :=
  if n == 9 then some ['\\', 't']
  else if n == 10 then some ['\\', 'n']
  else if n == 13 then some ['\\', 'r']
  else none

/-- A character inside a literal written in `quote`. -/
def quoteChar (quote c : Char) : List Char :=
  let n := c.toNat
  if c == quote || c == '\\' then ['\\', c]
  else
    match shortEscape? n with
    | some e => e
    | none =>
      if isPrintable c then [c]
      else if n < 0x100 then '\\' :: 'x' :: hexDigits 2 n
      else if n < 0x10000 then '\\' :: 'u' :: hexDigits 4 n
      else '\\' :: 'U' :: hexDigits 8 n

/-- The literal of a text. -/
def quoteText (s : String) : String :=
  let cs := s.toList
  let quote := quoteFor (cs.contains '\'') (cs.contains '"')
  String.ofList (quote :: cs.flatMap (quoteChar quote) ++ [quote])

/-- A byte inside a literal written in `quote`. -/
def quoteByte (quote : Char) (b : UInt8) : List Char :=
  let n := b.toNat
  let c := Char.ofNat n
  if c == quote || c == '\\' then ['\\', c]
  else
    match shortEscape? n with
    | some e => e
    | none => if 32 ≤ n && n < 127 then [c] else '\\' :: 'x' :: hexDigits 2 n

/-- The literal of a byte string. -/
def quoteBytes (s : Bytes) : String :=
  let quote := quoteFor (s.contains 39) (s.contains 34)
  String.ofList ('b' :: quote :: s.flatMap (quoteByte quote) ++ [quote])

end Text

end TableStore
