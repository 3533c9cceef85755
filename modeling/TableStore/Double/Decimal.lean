import TableStore.Double.Rounding

/-!
# Decimal Text of Doubles

A finite double is written with the fewest significant digits that read back
as the same double. Reading rounds to the nearest double, so the decimals that
read back are those between the midpoints to the two neighbours; the midpoints
themselves belong to the number of even rank. On the grid of decimals with a
given number of digits only the two neighbours of the number need to be tried,
and of two that read back the nearer one is written.

The digits are laid out positionally while the decimal exponent is at least
-4 and below 16, always with a decimal point, and otherwise with an exponent
of at least two digits.

Reading goes the other way: digits and a power of ten name a rational, which
is rounded. Numbers far outside the range of doubles are settled by the count
of their digits alone.

## Main definitions

* `Double.readsBack`: Whether a decimal reads back as the number at a rank.
* `Double.shortest`: The digits and the power of ten of the text.
* `Double.text`: The text of a double.
* `Double.ofDecimal`: The double nearest to digits times a power of ten.
-/

namespace TableStore

namespace Double

/-- Whether the decimal `x` rounds to the number at a rank above zero. -/
def readsBack (rank : Nat) (x : Rat) : Bool :=
  let here := magnitude rank
  let low := (magnitude (rank - 1) + here) / 2
  let high := (here + magnitude (rank + 1)) / 2
  if rank % 2 == 0 then low ≤ x && x ≤ high else low < x && x < high

/-- The value of `digits` times a power of ten. -/
def decimalValue (digits : Nat) (exponent : Int) : Rat :=
  (digits : Rat) * (10 : Rat) ^ exponent

/-- The number of digits before the decimal point of a number above zero; for
    a number below a tenth it is negative and counts the zeros after the
    point. No double is below 10⁻⁴⁰⁰. -/
def pointPosition (x : Rat) : Int :=
  ((Nat.toDigits 10 (x * (10 : Rat) ^ (400 : Int)).floor.toNat).length : Int) - 400

/-- The decimal with last digit at 10 to the `exponent` that reads back as the
    number at a rank, if one of its two neighbours on that grid does. Of two
    the nearer one is taken, and of two equally near the even one. -/
def onGrid (rank : Nat) (exponent : Int) : Option Nat :=
  let here := magnitude rank
  let below := (here / (10 : Rat) ^ exponent).floor.toNat
  let above := below + 1
  let belowFits := readsBack rank (decimalValue below exponent)
  let aboveFits := readsBack rank (decimalValue above exponent)
  match belowFits, aboveFits with
  | false, false => none
  | true, false => some below
  | false, true => some above
  | true, true =>
    let down := here - decimalValue below exponent
    let up := decimalValue above exponent - here
    if down < up then some below
    else if up < down then some above
    else if below % 2 == 0 then some below else some above

/-- The digits and the power of ten with the fewest digits that read back as
    the number at a rank above zero. Seventeen digits always suffice. -/
def shortest (rank : Nat) : Nat × Int :=
  let point := pointPosition (magnitude rank)
  let found := (List.range 17).findSome? fun i =>
    let exponent := point - (i + 1 : Nat)
    (onGrid rank exponent).map fun digits => (digits, exponent)
  found.getD (0, 0)

/-- A list of digits without the zeros at its end. -/
def trimZeros (digits : List Char) : List Char :=
  (digits.reverse.dropWhile (· == '0')).reverse

/-- An exponent with its sign and at least two digits. -/
def exponentText (e : Int) : List Char :=
  let digits := Nat.toDigits 10 e.natAbs
  (if e < 0 then '-' else '+') :: (if digits.length < 2 then '0' :: digits else digits)

/-- Lays out digits whose decimal point comes after the first `point` of
    them. -/
def layOut (digits : List Char) (point : Int) : List Char :=
  -- A number of a common size is written out, any other one with an exponent.
  if -4 < point && point ≤ 16 then
    if point ≤ 0 then '0' :: '.' :: (List.replicate (-point).toNat '0' ++ digits)
    else
      let whole := digits.take point.toNat
      let rest := digits.drop point.toNat
      -- Digits that are missing before the point are zeros, and one always follows it.
      whole ++ List.replicate (point.toNat - digits.length) '0'
        ++ '.' :: (if rest.isEmpty then ['0'] else rest)
  else
    match digits with
    | [] => []
    | d :: rest =>
      d :: ((if rest.isEmpty then [] else '.' :: rest) ++ 'e' :: exponentText (point - 1))

/-- The text of the number at a rank. -/
def magnitudeText (rank : Nat) : List Char :=
  if rank == 0 then ['0', '.', '0']
  else
    let (digits, exponent) := shortest rank
    let all := Nat.toDigits 10 digits
    layOut (trimZeros all) (all.length + exponent)

/-- The text of a double, with the given words for infinity and NaN. -/
def textWith (infinity nanWord : String) : Double → String
  | finite negative rank =>
    String.ofList (if negative then '-' :: magnitudeText rank else magnitudeText rank)
  | infinite negative => if negative then "-" ++ infinity else infinity
  | nan => nanWord

/-- The text of a double. -/
def text (d : Double) : String :=
  d.textWith "inf" "nan"

/-- The double nearest to `digits` times a power of ten, with a sign. Beyond
    10³¹⁰ everything is infinite, and below 10⁻³³⁰ everything is zero. -/
def ofDecimal (negative : Bool) (digits : Nat) (exponent : Int) : Double :=
  if digits == 0 then ofRank negative 0
  else
    let point := ((Nat.toDigits 10 digits).length : Int) + exponent
    if 310 < point then infinite negative
    else if point < -330 then ofRank negative 0
    else ofMagnitude negative (decimalValue digits exponent)

end Double

end TableStore
