/-!
# Blanks

The characters that separate words. These are the white space of Unicode
together with the four information separators U+001C to U+001F, and the same
set is used everywhere: around a statement, between its words, and around the
text of a value.

Trimming and word splitting work on any list together with a test for blanks,
because the statement reader trims lists of marked characters and not plain
text.

## Main definitions

* `isBlank`: Whether a character separates words.
* `trimBlanks`: A list without the blanks at its two ends.
* `splitWords`: The maximal runs without a blank.
-/

namespace TableStore

namespace Text

/-- Whether a character separates words. -/
def isBlank (c : Char) : Bool :=
  let n := c.toNat
  (9 ≤ n && n ≤ 13) || (0x1C ≤ n && n ≤ 0x20) || n == 0x85 || n == 0xA0 || n == 0x1680
    || (0x2000 ≤ n && n ≤ 0x200A) || n == 0x2028 || n == 0x2029 || n == 0x202F || n == 0x205F
    || n == 0x3000

/-- The list without the leading elements that satisfy `blank`. -/
def trimStart {α : Type} (blank : α → Bool) (s : List α) : List α :=
  s.dropWhile blank

/-- The list without the trailing elements that satisfy `blank`. -/
def trimEnd {α : Type} (blank : α → Bool) (s : List α) : List α :=
  (s.reverse.dropWhile blank).reverse

/-- The list without the elements that satisfy `blank` at its two ends. -/
def trimBy {α : Type} (blank : α → Bool) (s : List α) : List α :=
  trimEnd blank (trimStart blank s)

/-- A text without the blanks at its two ends. -/
def trimBlanks (s : List Char) : List Char :=
  trimBy isBlank s

/-- Appends an element to the first word of a list of words. -/
def consWord {α : Type} (a : α) : List (List α) → List (List α)
  | [] => [[a]]
  | w :: ws => (a :: w) :: ws

/-- The maximal runs of elements that do not satisfy `blank`, from left to
    right. -/
def splitRuns {α : Type} (blank : α → Bool) : List α → List (List α)
  | [] => []
  | [a] => if blank a then [] else [[a]]
  | a :: b :: s =>
    if blank a then splitRuns blank (b :: s)
    else if blank b then [a] :: splitRuns blank s
    else consWord a (splitRuns blank (b :: s))

/-- The words of a text. -/
def splitWords (s : List Char) : List (List Char) :=
  splitRuns isBlank s

end Text

end TableStore
