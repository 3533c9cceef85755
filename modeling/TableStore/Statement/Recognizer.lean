import TableStore.Statement.Text

/-!
# Recognizers

The small steps from which statements are read. Each takes the rest of the
text and gives what it found with the text after it, or nothing. Keywords are
recognized in any case. Words and runs of blanks are taken as long as they
are.

A clause without an end mark of its own, such as a condition, runs up to the
first place where the remaining clauses of the statement can be read.

## Main definitions

* `skipBlanks`, `blanks?`: Blanks that may or have to be there.
* `keyword?`, `phrase?`: A keyword, and several separated by blanks.
* `word?`: A name.
* `enclosed?`: What is inside parentheses that end with the text.
* `shortestPrefix?`: A clause that ends where the rest can be read.
-/

namespace TableStore

/-- The text after leading blanks. -/
def skipBlanks (s : List Cell) : List Cell :=
  s.dropWhile Cell.isBlank

/-- The text after leading blanks, of which there has to be one. -/
def blanks? : List Cell → Option (List Cell)
  | [] => none
  | c :: s => if c.isBlank then some (skipBlanks s) else none

/-- The text after a keyword in any case. -/
def letters? : List Char → List Cell → Option (List Cell)
  | [], s => some s
  | _ :: _, [] => none
  | a :: w, c :: s => if Text.sameLetter a c.visible then letters? w s else none

/-- The text after a keyword in any case. -/
def keyword? (w : String) (s : List Cell) : Option (List Cell) :=
  letters? w.toList s

/-- The text after keywords separated by blanks. -/
def phrase? : List String → List Cell → Option (List Cell)
  | [], s => some s
  | [w], s => keyword? w s
  | w :: v :: rest, s => do
    let s ← keyword? w s
    let s ← blanks? s
    phrase? (v :: rest) s

/-- The text after keywords separated by blanks, with blanks around them. -/
def spacedPhrase? (words : List String) (s : List Cell) : Option (List Cell) := do
  let s ← blanks? s
  let s ← phrase? words s
  blanks? s

/-- Whether an optional phrase followed by blanks is there, and the text after
    it. -/
def option? (words : List String) (s : List Cell) : Bool × List Cell :=
  match (phrase? words s).bind blanks? with
  | some rest => (true, rest)
  | none => (false, s)

/-- The name that a text starts with, and the text after it. -/
def word? (s : List Cell) : Option (String × List Cell) :=
  let name := s.takeWhile Cell.isWordChar
  if name.isEmpty then none else some (cellText name, s.dropWhile Cell.isWordChar)

/-- The first result of splitting the name that a text starts with, from the
    whole name down to its first character. -/
def someWordSplit? {α : Type} (f : String → List Cell → Option α) (s : List Cell) : Option α :=
  let length := (s.takeWhile Cell.isWordChar).length
  (List.range length).findSome? fun i =>
    f (cellText (s.take (length - i))) (s.drop (length - i))

/-- The text after a character. -/
def mark? (a : Char) : List Cell → Option (List Cell)
  | [] => none
  | c :: s => if c.shows a then some s else none

/-- The text up to a closing parenthesis, and the text after it. -/
def untilClosing? : List Cell → Option (List Cell × List Cell)
  | [] => none
  | c :: s =>
    if c.shows ')' then some ([], s)
    else (untilClosing? s).map fun (inside, rest) => (c :: inside, rest)

/-- The text up to a closing parenthesis that it ends with. -/
def enclosed? (s : List Cell) : Option (List Cell) :=
  match s.getLast? with
  | some c => if c.shows ')' then some s.dropLast else none
  | none => none

/-- Succeeds at the end of the text. -/
def atEnd? (s : List Cell) : Option Unit :=
  if (skipBlanks s).isEmpty then some () else none

/-- Whether no word goes on at the start of the text. -/
def atWordEnd (s : List Cell) : Bool :=
  match s with
  | [] => true
  | c :: _ => !c.isWordChar

/-- The shortest clause of at least one character such that the text after it
    can be read. -/
def shortestPrefix? {α : Type} (f : List Cell → Option α) : List Cell → Option (List Cell × α)
  | [] => none
  | c :: s =>
    match f s with
    | some a => some ([c], a)
    | none => (shortestPrefix? f s).map fun (clause, a) => (c :: clause, a)

/-- The values of the leading digits, of which there has to be one. -/
def digits? (s : List Cell) : Option (List Nat × List Cell) :=
  let digits := (s.takeWhile fun c => Text.isDigit c.visible)
  if digits.isEmpty then none
  else
    some (digits.filterMap fun c => Text.digitValue? c.visible,
      s.dropWhile fun c => Text.isDigit c.visible)

/-- Whether a list of names has a name twice. -/
def hasRepeats : List String → Bool
  | [] => false
  | name :: rest => rest.contains name || hasRepeats rest

end TableStore
