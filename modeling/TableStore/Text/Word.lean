import TableStore.Text.WordTable

/-!
# Word Characters

Names are runs of word characters: letters and numbers of any script, and the
underscore.

## Main definitions

* `inRanges`: Membership in a table of ranges.
* `isWordChar`: Whether a character can be part of a name.
-/

namespace TableStore

namespace Text

/-- Whether a code point lies in one of the closed ranges. -/
def inRanges (table : List (Nat × Nat)) (n : Nat) : Bool :=
  table.any fun range => range.1 ≤ n && n ≤ range.2

/-- Whether a character can be part of a name. -/
def isWordChar (c : Char) : Bool :=
  let n := c.toNat
  if n < 128 then
    (48 ≤ n && n ≤ 57) || (65 ≤ n && n ≤ 90) || (97 ≤ n && n ≤ 122) || n == 95
  else
    inRanges wordRanges n

end Text

end TableStore
