import TableStore.Fault
import TableStore.Text.Blank
import TableStore.Text.Case

/-!
# Literals

The value that a piece of a statement denotes. Blank text and the word NULL are
null; text in quotes is text; the words TRUE and FALSE are truth values. A
number with a decimal point is a float if it is within range, and a run of
digits is an integer. Anything else denotes its own text.

Inside quotes a doubled quote and a quote after a backslash stand for one
quote. Doubled quotes are read first, throughout the text.

## Main definitions

* `collapsePairs`: A text with each pair of two characters replaced by the
  second.
* `readInteger?`: The sign and digits of an integer.
* `readFloat?`: The float that a text denotes.
* `Value.ofLiteral`: The value that a text denotes.
-/

namespace TableStore

/-- The text with each `a` directly before a `b` removed, where pairs are
    taken from left to right. -/
def collapsePairs (a b : Char) : List Char → List Char
  | [] => []
  | [c] => [c]
  | c :: d :: s =>
    if c == a && d == b then b :: collapsePairs a b s else c :: collapsePairs a b (d :: s)

/-- The content of a quoted literal as the text it denotes. -/
def unescapeQuotes (quote : Char) (body : List Char) : List Char :=
  collapsePairs '\\' quote (collapsePairs quote quote body)

/-- Whether a character is one of the two quotes. -/
def isQuote (c : Char) : Bool :=
  c == '\'' || c == '"'

/-- Splits off a leading sign and says whether it is a minus. -/
def takeSign : List Char → Bool × List Char
  | '-' :: s => (true, s)
  | '+' :: s => (false, s)
  | s => (false, s)

/-- The values of the leading digits of a text, and the rest of the text. -/
def takeDigits : List Char → List Nat × List Char
  | [] => ([], [])
  | c :: s =>
    match Text.digitValue? c with
    | some d =>
      let (ds, rest) := takeDigits s
      (d :: ds, rest)
    | none => ([], c :: s)

/-- The sign and the digits of a text that is an integer. -/
def readInteger? (s : List Char) : Option (Bool × List Nat) :=
  let (negative, s) := takeSign s
  let (digits, rest) := takeDigits s
  if !digits.isEmpty && rest.isEmpty then some (negative, digits) else none

/-- The integer with a sign and digits, unless there are too many of them. -/
def integerOf (negative : Bool) (digits : List Nat) : Except Fault Int :=
  if digits.length ≤ Text.digitLimit then
    let n : Int := Text.numberOfDigits digits
    .ok (if negative then -n else n)
  else .error .digitLimit

/-- The exponent part of a number, which may be absent. -/
def readExponent? : List Char → Option Int
  | [] => some 0
  | c :: s =>
    if c == 'e' || c == 'E' then
      let (negative, s) := takeSign s
      let (digits, rest) := takeDigits s
      if !digits.isEmpty && rest.isEmpty then
        let n : Int := Text.numberOfDigits digits
        some (if negative then -n else n)
      else none
    else none

/-- The float that a number with a decimal point denotes: a sign, digits on
    at least one side of the point, and perhaps an exponent. -/
def readFloat? (s : List Char) : Option Double :=
  let (negative, s) := takeSign s
  let (whole, s) := takeDigits s
  match s with
  | '.' :: s =>
    let (places, s) := takeDigits s
    let digits := whole ++ places
    if digits.isEmpty then none
    else
      (readExponent? s).map fun e =>
        Double.ofDecimal negative (Text.numberOfDigits digits) (e - places.length)
  | _ => none

/-- The quoted text that a literal denotes, if it is written in quotes. -/
def quotedContent? : List Char → Option (List Char)
  | [] => none
  | q :: s =>
    if isQuote q && s.getLast? == some q then some (unescapeQuotes q s.dropLast) else none

/-- The value that a text without outer blanks denotes. -/
def Value.ofTrimmed (s : List Char) : Except Fault Value :=
  let capitals := Text.toUpper s
  if s.isEmpty || capitals == "NULL".toList then .ok .null
  else
    match quotedContent? s with
    | some content => .ok (.text (String.ofList content))
    | none =>
      if capitals == "TRUE".toList then .ok (.bool true)
      else if capitals == "FALSE".toList then .ok (.bool false)
      else
        -- A number with a point that is beyond the doubles is read as text.
        match (readFloat? s).filter Double.isFinite with
        | some d => .ok (.float d)
        | none =>
          match readInteger? s with
          | some (negative, digits) => (integerOf negative digits).map .int
          | none => .ok (.text (String.ofList s))

/-- The value that a text denotes. -/
def Value.ofLiteral (s : List Char) : Except Fault Value :=
  Value.ofTrimmed (Text.trimBlanks s)

end TableStore
