import TableStore.Text.Case

/-!
# Regular Expressions

The part of the notation of regular expressions that is written here: characters
that stand for themselves, the point for any character, and the star for any
number of what is before it. An operator of the notation stands for itself behind
a backslash. The other operators are not read, nor is a backslash before a letter
or a digit, which would give it a meaning of its own.

Case is ignored, the point fits line breaks as well, and an expression has to fit
the whole of a text.

## Main definitions

* `Regex.Atom`, `Regex.Part`: What an expression is made of.
* `Regex.escape`: The expression that fits one character.
* `Regex.ofText?`: The expression that a text is.
* `Regex.fits`: Whether an expression fits a text.
-/

namespace TableStore

namespace Regex

/-- What fits one character. -/
inductive Atom where
  | any
  | letter (c : Char)
  deriving DecidableEq

/-- An atom, and whether it may fit any number of characters instead of one. -/
structure Part where
  atom : Atom
  repeated : Bool
  deriving DecidableEq

/-- What the text of an expression consists of: characters that stand for
    themselves, and operators. -/
inductive Token where
  | letter (c : Char)
  | operator (c : Char)
  deriving DecidableEq

/-- Whether a character is an operator of the notation. -/
def isOperator (c : Char) : Bool :=
  ['\\', '.', '*', '+', '?', '^', '$', '|', '(', ')', '[', ']', '{', '}'].contains c

/-- Whether a character is written with a backslash. Some are that are operators
    in other places only, and so are blanks. -/
def isEscaped (c : Char) : Bool :=
  isOperator c || ['-', '&', '~', '#', ' ', '\t', '\n', '\r', '\x0b', '\x0c'].contains c

/-- The expression that fits one character. -/
def escape (c : Char) : List Char :=
  if isEscaped c then ['\\', c] else [c]

/-- What a character is without a backslash before it. -/
def bareToken (c : Char) : Token :=
  if isOperator c then .operator c else .letter c

/-- The tokens of a text, where `escaped` says whether a backslash is before it. -/
def tokens? : (escaped : Bool) → List Char → Option (List Token)
  | false, [] => some []
  | true, [] => none
  | true, c :: s => if c.isAlphanum then none else (tokens? false s).map (.letter c :: ·)
  | false, c :: s =>
    if c = '\\' then tokens? true s else (tokens? false s).map (bareToken c :: ·)

/-- The atom that a token is. -/
def atom? : Token → Option Atom
  | .letter c => some (.letter c)
  | .operator c => if c = '.' then some .any else none

/-- The parts of an expression. -/
def parts? : List Token → Option (List Part)
  | [] => some []
  | [t] => (atom? t).map fun atom => [⟨atom, false⟩]
  | t :: u :: s => do
    let atom ← atom? t
    if u = .operator '*' then (parts? s).map (⟨atom, true⟩ :: ·)
    else (parts? (u :: s)).map (⟨atom, false⟩ :: ·)

/-- The expression that a text is. -/
def ofText? (s : List Char) : Option (List Part) :=
  (tokens? false s).bind parts?

/-- Whether an atom fits a character. -/
def Atom.fits : Atom → Char → Bool
  | any, _ => true
  | letter c, d => Text.sameLetter c d

/-- What is left of a text after any number of characters that an atom fits. -/
def Atom.rests (atom : Atom) : List Char → List (List Char)
  | [] => [[]]
  | d :: s => (d :: s) :: if atom.fits d then atom.rests s else []

/-- Whether an expression fits a text. -/
def fits : List Part → List Char → Bool
  | [], s => s.isEmpty
  | part :: parts, s =>
    if part.repeated then (part.atom.rests s).any fun rest => fits parts rest
    else
      match s with
      | [] => false
      | d :: rest => part.atom.fits d && fits parts rest

end Regex

end TableStore
