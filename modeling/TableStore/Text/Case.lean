import TableStore.Text.CaseTable
import TableStore.Text.Word

/-!
# Letter Case

Three ways to disregard case, which agree on ASCII and differ beyond it.

Capitals and small letters of a whole text are its full mappings: a letter may
become several, and a capital sigma at the end of a word becomes the final
sigma. Two characters are the same letter when they fold to the same
character: folding takes the small letter, one for one, and identifies the
variants of a letter. Keywords of a statement and the patterns of `LIKE` are
compared by folding.

## Main definitions

* `toUpper`: The capitals of a text.
* `toLower`: The small letters of a text.
* `foldCase`: The character that stands for a letter in any case.
* `sameLetter`: Whether two characters are the same letter.
-/

namespace TableStore

namespace Text

/-- Where a table of runs moves a code point, which is where it already is if
    no run covers it. -/
def applyRuns (runs : List CaseRun) (n : Nat) : Nat :=
  match runs.find? fun run => run.first ≤ n && n ≤ run.last && (n - run.first) % run.step == 0 with
  | some run => ((n : Int) + run.shift).toNat
  | none => n

/-- The small letter of a single character. -/
def lowerChar (c : Char) : Char :=
  let n := c.toNat
  if n < 128 then
    if 65 ≤ n && n ≤ 90 then Char.ofNat (n + 32) else c
  else
    Char.ofNat (applyRuns lowerRuns n)

/-- The capital of a single character, which may take several characters. -/
def upperChar (c : Char) : List Char :=
  let n := c.toNat
  if n < 128 then
    if 97 ≤ n && n ≤ 122 then [Char.ofNat (n - 32)] else [c]
  else
    match upperExpansions.find? fun entry => entry.1 == n with
    | some entry => entry.2.map Char.ofNat
    | none => [Char.ofNat (applyRuns upperRuns n)]

/-- The text in capitals. -/
def toUpper (s : List Char) : List Char :=
  s.flatMap upperChar

/-- Whether a character is passed over when looking for a neighbouring letter
    with case. -/
def isCaseIgnorable (c : Char) : Bool :=
  inRanges caseIgnorableRanges c.toNat

/-- Whether the first character that is not passed over is a letter with
    case. -/
def startsCased (s : List Char) : Bool :=
  match s.dropWhile isCaseIgnorable with
  | [] => false
  | c :: _ => inRanges casedRanges c.toNat

/-- The small letters of a text whose characters before it are `before`, the
    nearest one first. A capital sigma that ends a word becomes the final
    sigma, and a capital I with a dot keeps its dot. -/
def lowerAfter (before : List Char) : List Char → List Char
  | [] => []
  | c :: s =>
    let small :=
      if c.toNat == 0x3A3 then
        if startsCased before && !startsCased s then ['ς'] else ['σ']
      else if c.toNat == 0x130 then ['i', Char.ofNat 0x307]
      else [lowerChar c]
    small ++ lowerAfter (c :: before) s

/-- The text in small letters. -/
def toLower (s : List Char) : List Char :=
  lowerAfter [] s

/-- The character that stands for a letter in any case. -/
def foldCase (c : Char) : Char :=
  let small := lowerChar c
  if small.toNat < 128 then small
  else
    match letterVariants.find? fun entry => entry.1 == small.toNat with
    | some entry => Char.ofNat entry.2
    | none => small

/-- Whether two characters are the same letter when case is ignored. -/
def sameLetter (a b : Char) : Bool :=
  foldCase a == foldCase b

end Text

end TableStore
