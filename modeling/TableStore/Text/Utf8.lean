import TableStore.Bytes

/-!
# UTF-8

Text is stored as UTF-8. Reading goes character by character: the first byte
says how many continuation bytes are owed and what range the first of them may
take, which is where overlong forms, surrogates and numbers above U+10FFFF are
refused. A reader that meets a byte it cannot use has read the longest run of
bytes that could still have begun a character, and that run is what the
lenient reader replaces by one replacement character.

## Main definitions

* `encodeChar`, `encode`: The bytes of a character and of a text.
* `characters`: The characters of a byte string, with nothing for each
  malformed run.
* `decode?`: The text of well-formed bytes.
* `decodeLossy`: The text of any bytes, with malformed runs replaced.
-/

namespace TableStore

namespace Text

/-- The bytes of a character. -/
def encodeChar (c : Char) : Bytes :=
  let n := c.toNat
  if n < 0x80 then [UInt8.ofNat n]
  else if n < 0x800 then [UInt8.ofNat (0xC0 + n / 64), UInt8.ofNat (0x80 + n % 64)]
  else if n < 0x10000 then
    [UInt8.ofNat (0xE0 + n / 4096), UInt8.ofNat (0x80 + n / 64 % 64), UInt8.ofNat (0x80 + n % 64)]
  else
    [UInt8.ofNat (0xF0 + n / 262144), UInt8.ofNat (0x80 + n / 4096 % 64),
      UInt8.ofNat (0x80 + n / 64 % 64), UInt8.ofNat (0x80 + n % 64)]

/-- The bytes of a text given by its characters. -/
def encodeChars (s : List Char) : Bytes :=
  s.flatMap encodeChar

/-- The bytes of a text. -/
def encode (s : String) : Bytes :=
  encodeChars s.toList

/-- Reads `owed` continuation bytes onto `value`. The first one must lie
    between `low` and `high`. The rest of the input starts at the first byte
    that cannot be used. -/
def readTail : (owed low high value : Nat) → Bytes → Option Nat × Bytes
  | 0, _, _, value, s => (some value, s)
  | _ + 1, _, _, _, [] => (none, [])
  | owed + 1, low, high, value, b :: s =>
    if low ≤ b.toNat && b.toNat ≤ high then
      readTail owed 0x80 0xBF (64 * value + (b.toNat - 0x80)) s
    else (none, b :: s)

/-- Reads what follows the first byte `b` of a character: its code point, or
    nothing if the bytes read form no character. -/
def readAfter (b : Nat) (s : Bytes) : Option Nat × Bytes :=
  if b < 0x80 then (some b, s)
  else if b < 0xC2 then (none, s)
  else if b < 0xE0 then readTail 1 0x80 0xBF (b - 0xC0) s
  else if b == 0xE0 then readTail 2 0xA0 0xBF 0 s
  else if b == 0xED then readTail 2 0x80 0x9F 0xD s
  else if b < 0xF0 then readTail 2 0x80 0xBF (b - 0xE0) s
  else if b == 0xF0 then readTail 3 0x90 0xBF 0 s
  else if b < 0xF4 then readTail 3 0x80 0xBF (b - 0xF0) s
  else if b == 0xF4 then readTail 3 0x80 0x8F 4 s
  else (none, s)

/-- Reads the characters of a byte string with at most `steps` steps, giving
    nothing for each malformed run. -/
def readChars : (steps : Nat) → Bytes → List (Option Char)
  | 0, _ => []
  | _ + 1, [] => []
  | steps + 1, b :: s =>
    let (point, rest) := readAfter b.toNat s
    point.map Char.ofNat :: readChars steps rest

/-- The characters of a byte string, with nothing for each malformed run. Each
    step uses at least one byte, so the length of the input is enough steps. -/
def characters (s : Bytes) : List (Option Char) :=
  readChars s.length s

/-- The text of a well-formed byte string. -/
def decode? (s : Bytes) : Option String :=
  ((characters s).mapM id).map String.ofList

/-- The replacement character. -/
def replacementChar : Char := Char.ofNat 0xFFFD

/-- The text of any byte string, with each malformed run replaced by one
    replacement character. -/
def decodeLossy (s : Bytes) : List Char :=
  (characters s).map fun c => c.getD replacementChar

end Text

end TableStore
