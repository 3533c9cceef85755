import TableStore.Fault
import TableStore.Text.Regex

/-!
# Patterns

The patterns of `LIKE`. A percent sign stands for any text, an underscore for
any one character, and every other character for itself in any case. The
pattern has to match the whole text.

A pattern is turned into a regular expression, character by character.

## Main definitions

* `patternRegex`: The regular expression of a pattern.
* `matchesPattern`: Whether a text matches a pattern.
* `Value.like`: Whether the text of a value matches a pattern.
-/

namespace TableStore

/-- The regular expression of one character of a pattern. -/
def pieceRegex (c : Char) : List Char :=
  if c = '%' then ['.', '*'] else if c = '_' then ['.'] else Regex.escape c

/-- The regular expression of a pattern. -/
def patternRegex (pattern : List Char) : List Char :=
  pattern.flatMap pieceRegex

/-- Whether a text matches a pattern. -/
def matchesPattern (pattern text : List Char) : Bool :=
  (Regex.ofText? (patternRegex pattern)).any fun parts => Regex.fits parts text

namespace Value

/-- The characters that a value is matched by. Bytes are read as UTF-8. -/
def likeText : Value → List Char
  | bytes b => Text.decodeLossy b
  | v => v.toText.toList

/-- Whether a value matches a pattern, which is the plain text of any
    value. -/
def like (v pattern : Value) : Except Fault Bool :=
  if v.hasText && pattern.hasText then
    .ok (matchesPattern pattern.toText.toList v.likeText)
  else .error .digitLimit

end Value

end TableStore
