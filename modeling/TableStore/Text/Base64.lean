import TableStore.Bytes

/-!
# Base64

Byte strings inside JSON are written in base 64 with the standard alphabet and
padding. The reader is lenient, as readers of mail are: characters outside the
alphabet are passed over, and reading stops at the padding that completes a
group of four. What it refuses is a text that ends inside a group.

## Main definitions

* `toBase64`: The text of a byte string.
* `ofBase64?`: The byte string of a text.
-/

namespace TableStore

namespace Text

/-- The digit that stands for a value below 64. -/
def base64Digit (n : Nat) : Char :=
  if n < 26 then Char.ofNat (65 + n)
  else if n < 52 then Char.ofNat (71 + n)
  else if n < 62 then Char.ofNat (n - 4)
  else if n == 62 then '+'
  else '/'

/-- The value of a digit of the alphabet. -/
def base64Value? (c : Char) : Option Nat :=
  let n := c.toNat
  if 65 ≤ n && n ≤ 90 then some (n - 65)
  else if 97 ≤ n && n ≤ 122 then some (n - 71)
  else if 48 ≤ n && n ≤ 57 then some (n + 4)
  else if c == '+' then some 62
  else if c == '/' then some 63
  else none

/-- The text of a byte string: four digits for three bytes, and padding for
    the one or two bytes that are left. -/
def toBase64 : Bytes → List Char
  | [] => []
  | [a] =>
    [base64Digit (a.toNat / 4), base64Digit (a.toNat % 4 * 16), '=', '=']
  | [a, b] =>
    [base64Digit (a.toNat / 4), base64Digit (a.toNat % 4 * 16 + b.toNat / 16),
      base64Digit (b.toNat % 16 * 4), '=']
  | a :: b :: c :: s =>
    base64Digit (a.toNat / 4) :: base64Digit (a.toNat % 4 * 16 + b.toNat / 16)
      :: base64Digit (b.toNat % 16 * 4 + c.toNat / 64) :: base64Digit (c.toNat % 64)
      :: toBase64 s

/-- Where a reader stands inside a group of four digits: how many digits it
    has, the bits they have left over, and how many paddings it has seen since
    the last digit. -/
structure Base64Position where
  digits : Nat
  left : Nat
  paddings : Nat

/-- Reads from a position inside a group. -/
def readBase64 : Base64Position → List Char → Option Bytes
  | here, [] => if here.digits == 0 then some [] else none
  | here, c :: s =>
    if c == '=' then
      if 2 ≤ here.digits then
        if 4 ≤ here.digits + here.paddings + 1 then some []
        else readBase64 { here with paddings := here.paddings + 1 } s
      else readBase64 here s
    else
      match base64Value? c with
      -- Characters that are no digits are passed over.
      | none => readBase64 here s
      | some v =>
        match here.digits with
        | 0 => readBase64 ⟨1, v, 0⟩ s
        | 1 => (readBase64 ⟨2, v % 16, 0⟩ s).map (UInt8.ofNat (here.left * 4 + v / 16) :: ·)
        | 2 => (readBase64 ⟨3, v % 4, 0⟩ s).map (UInt8.ofNat (here.left * 16 + v / 4) :: ·)
        | _ => (readBase64 ⟨0, 0, 0⟩ s).map (UInt8.ofNat (here.left * 64 + v) :: ·)

/-- The byte string of a text, unless the text ends inside a group. -/
def ofBase64? (s : List Char) : Option Bytes :=
  readBase64 ⟨0, 0, 0⟩ s

end Text

end TableStore
