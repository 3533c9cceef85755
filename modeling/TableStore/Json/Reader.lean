import TableStore.Fault
import TableStore.Json
import TableStore.Members
import TableStore.Value.Literal

/-!
# Reading JSON

The reader accepts standard JSON and the three words for doubles without a
number. Blanks are the four of the standard, control characters have no place
inside a string, and nothing may follow the value. A name given twice in an
object keeps its first place and its last value.

Each nested value uses up at least one character, so the length of the text
bounds the depth of the reading.

## Main definitions

* `readJsonString`: The rest of a string after its opening quote.
* `readJsonNumber`: A number.
* `Json.read`: A value at the start of a text.
* `Json.ofChars`, `Json.ofBytes`: The value that a whole text denotes.
-/

namespace TableStore

/-- The text without leading JSON blanks. -/
def skipJsonBlanks (s : List Char) : List Char :=
  s.dropWhile fun c => c == ' ' || c == '\t' || c == '\n' || c == '\r'

/-- The value of a hexadecimal digit. -/
def hexValue? (c : Char) : Option Nat :=
  let n := c.toNat
  if 48 ≤ n && n ≤ 57 then some (n - 48)
  else if 97 ≤ n && n ≤ 102 then some (n - 87)
  else if 65 ≤ n && n ≤ 70 then some (n - 55)
  else none

/-- The number that four hexadecimal digits at the start of a text spell, and
    the rest of the text. -/
def readUnit? : List Char → Option (Nat × List Char)
  | a :: b :: c :: d :: s =>
    match hexValue? a, hexValue? b, hexValue? c, hexValue? d with
    | some a, some b, some c, some d => some (((a * 16 + b) * 16 + c) * 16 + d, s)
    | _, _, _, _ => none
  | _ => none

/-- The character that an escape other than a number stands for. -/
def shortJsonEscape? (c : Char) : Option Char :=
  if c == '"' || c == '\\' || c == '/' then some c
  else if c == 'b' then some (Char.ofNat 8)
  else if c == 'f' then some (Char.ofNat 12)
  else if c == 'n' then some '\n'
  else if c == 'r' then some '\r'
  else if c == 't' then some '\t'
  else none

/-- Whether a unit of sixteen bits begins a pair. -/
def isHighSurrogate (n : Nat) : Bool :=
  0xD800 ≤ n && n ≤ 0xDBFF

/-- Whether a unit of sixteen bits ends a pair. -/
def isLowSurrogate (n : Nat) : Bool :=
  0xDC00 ≤ n && n ≤ 0xDFFF

/-- The character that a unit stands for together with the text after it,
    which may hold the second half of a pair. A half without its other half
    has no character of its own and reads as the replacement character. -/
def readPaired? (n : Nat) (s : List Char) : Option (Char × List Char) :=
  let alone := if isHighSurrogate n || isLowSurrogate n then Text.replacementChar else Char.ofNat n
  -- Only a high half looks for a low one, and one that is not there is not taken.
  match s with
  | '\\' :: 'u' :: rest =>
    if isHighSurrogate n then
      match readUnit? rest with
      | none => none
      | some (low, after) =>
        if isLowSurrogate low then
          some (Char.ofNat (0x10000 + (n - 0xD800) * 0x400 + (low - 0xDC00)), after)
        else some (alone, s)
    else some (alone, s)
  | _ => some (alone, s)

/-- The character that an escape stands for, read after its backslash. -/
def readEscape? : List Char → Option (Char × List Char)
  | [] => none
  | 'u' :: s =>
    match readUnit? s with
    | none => none
    | some (n, rest) => readPaired? n rest
  | c :: s => (shortJsonEscape? c).map fun e => (e, s)

/-- The rest of a string after its opening quote, and the text after its
    closing quote. Each step uses up at least one character. -/
def readStringWithin : (steps : Nat) → List Char → Option (List Char × List Char)
  | 0, _ => none
  | _ + 1, [] => none
  | steps + 1, c :: s =>
    if c == '"' then some ([], s)
    else if c == '\\' then
      match readEscape? s with
      | none => none
      | some (e, rest) => (readStringWithin steps rest).map fun (t, after) => (e :: t, after)
    else if c.toNat < 32 then none
    else (readStringWithin steps s).map fun (t, after) => (c :: t, after)

/-- The rest of a string after its opening quote, and the text after its
    closing quote. -/
def readJsonString (s : List Char) : Except Fault (String × List Char) :=
  match readStringWithin s.length s with
  | some (t, rest) => .ok (String.ofList t, rest)
  | none => .error .malformedJson

/-- The values of the leading ASCII digits, and the rest of the text. -/
def takeAsciiDigits : List Char → List Nat × List Char
  | [] => ([], [])
  | c :: s =>
    if 48 ≤ c.toNat && c.toNat ≤ 57 then
      let (ds, rest) := takeAsciiDigits s
      ((c.toNat - 48) :: ds, rest)
    else ([], c :: s)

/-- The digits of the whole part of a number, which is a zero or does not
    start with one. -/
def takeWhole : List Char → List Nat × List Char
  | '0' :: s => ([0], s)
  | s => takeAsciiDigits s

/-- The digits after a decimal point, if there are any. -/
def takePlaces (s : List Char) : Option (List Nat) × List Char :=
  match s with
  | '.' :: rest =>
    match takeAsciiDigits rest with
    | ([], _) => (none, s)
    | (places, rest) => (some places, rest)
  | _ => (none, s)

/-- The exponent of a number, if there is one. -/
def takeExponent (s : List Char) : Option Int × List Char :=
  match s with
  | [] => (none, s)
  | c :: rest =>
    if c == 'e' || c == 'E' then
      let (negative, rest) := takeSign rest
      match takeAsciiDigits rest with
      -- A letter without digits after it is no exponent, and is left in the text.
      | ([], _) => (none, s)
      | (digits, rest) =>
        let n : Int := Text.numberOfDigits digits
        (some (if negative then -n else n), rest)
    else (none, s)

/-- A number after its sign: an integer if it has neither a fraction nor an
    exponent. -/
def readUnsigned (negative : Bool) (s : List Char) : Except Fault (Json × List Char) :=
  match takeWhole s with
  | ([], _) => .error .malformedJson
  | (whole, s) =>
    match takePlaces s with
    | (places?, s) =>
      match takeExponent s with
      | (none, s) =>
        match places? with
        | none => (integerOf negative whole).map fun n => (.int n, s)
        | some places =>
          .ok (.float (Double.ofDecimal negative (Text.numberOfDigits (whole ++ places))
            (-(places.length : Int))), s)
      | (some e, s) =>
        let places := places?.getD []
        .ok (.float (Double.ofDecimal negative (Text.numberOfDigits (whole ++ places))
          (e - places.length)), s)

/-- A number. -/
def readJsonNumber (s : List Char) : Except Fault (Json × List Char) :=
  match s with
  | '-' :: rest => readUnsigned true rest
  | s => readUnsigned false s

/-- The rest of a text after a word that it has to start with. -/
def expectWord (word : List Char) (s : List Char) : Except Fault (List Char) :=
  if word.isPrefixOf s then .ok (s.drop word.length) else .error .malformedJson

/-- The name of a member and its colon, read after the opening quote. -/
def readName (s : List Char) : Except Fault (String × List Char) := do
  let (name, s) ← readJsonString s
  match skipJsonBlanks s with
  | ':' :: s => .ok (name, skipJsonBlanks s)
  | _ => .error .malformedJson

namespace Json

mutual

/-- A value at the start of a text, nested at most `depth` deep. -/
def read : (depth : Nat) → List Char → Except Fault (Json × List Char)
  | 0, _ => .error .malformedJson
  | depth + 1, s =>
    match s with
    | '"' :: s => (readJsonString s).map fun (t, rest) => (string t, rest)
    | '[' :: s =>
      match skipJsonBlanks s with
      | ']' :: rest => .ok (array [], rest)
      | s => do
        let (item, s) ← read depth s
        let (items, s) ← readItems depth (skipJsonBlanks s)
        .ok (array (item :: items), s)
    | '{' :: s =>
      match skipJsonBlanks s with
      | '}' :: rest => .ok (object [], rest)
      | '"' :: s => do
        let (name, s) ← readName s
        let (item, s) ← read depth s
        let (members, s) ← readMembers depth (skipJsonBlanks s)
        -- Of members with one name the last one counts.
        .ok (object (Members.ofList ((name, item) :: members)), s)
      | _ => .error .malformedJson
    | 'n' :: _ => (expectWord "null".toList s).map fun rest => (null, rest)
    | 't' :: _ => (expectWord "true".toList s).map fun rest => (bool true, rest)
    | 'f' :: _ => (expectWord "false".toList s).map fun rest => (bool false, rest)
    | 'N' :: _ => (expectWord "NaN".toList s).map fun rest => (float .nan, rest)
    | 'I' :: _ =>
      (expectWord "Infinity".toList s).map fun rest => (float (.infinite false), rest)
    | '-' :: 'I' :: _ =>
      (expectWord "-Infinity".toList s).map fun rest => (float (.infinite true), rest)
    | s => readJsonNumber s

/-- The items of an array after one of them, up to the closing bracket. -/
def readItems : (depth : Nat) → List Char → Except Fault (List Json × List Char)
  | 0, _ => .error .malformedJson
  | depth + 1, s =>
    match s with
    | ']' :: rest => .ok ([], rest)
    | ',' :: s => do
      let (item, s) ← read depth (skipJsonBlanks s)
      let (items, s) ← readItems depth (skipJsonBlanks s)
      .ok (item :: items, s)
    | _ => .error .malformedJson

/-- The members of an object after one of them, up to the closing brace. -/
def readMembers : (depth : Nat) → List Char → Except Fault (List (String × Json) × List Char)
  | 0, _ => .error .malformedJson
  | depth + 1, s =>
    match s with
    | '}' :: rest => .ok ([], rest)
    | ',' :: s =>
      match skipJsonBlanks s with
      | '"' :: s => do
        let (name, s) ← readName s
        let (item, s) ← read depth s
        let (members, s) ← readMembers depth (skipJsonBlanks s)
        .ok ((name, item) :: members, s)
      | _ => .error .malformedJson
    | _ => .error .malformedJson

end

/-- The value that a text denotes. -/
def ofChars (s : List Char) : Except Fault Json := do
  let (j, rest) ← read (s.length + 1) (skipJsonBlanks s)
  if (skipJsonBlanks rest).isEmpty then .ok j else .error .malformedJson

/-- The value that stored bytes denote. -/
def ofBytes (data : Bytes) : Except Fault Json :=
  match Text.decode? data with
  | some s => ofChars s.toList
  | none => .error .malformedUtf8

end Json

end TableStore
