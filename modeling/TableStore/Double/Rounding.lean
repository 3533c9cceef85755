import TableStore.Double

/-!
# Rounding to a Double

A rational is rounded to the nearest double, and a rational halfway between
two goes to the one of even rank. The rank is found directly: on the block
that the number falls into, it is the start of the block plus the number of
steps, rounded. A number that rounds up to the end of its block thereby gets
the first rank of the next one, and the ranks past the last finite number are
infinity.

Arithmetic is exact arithmetic followed by one rounding.

## Main definitions

* `roundHalfEven`: The nearest integer, ties to even.
* `Double.ofMagnitude`: The double nearest to a number of known sign.
* `Double.ofInt?`: The double nearest to an integer, if it is finite.
* `Double.add`, `Double.sub`: Sum and difference.
-/

namespace TableStore

/-- The integer nearest to a rational; of two equally near the even one. -/
def roundHalfEven (x : Rat) : Int :=
  let n := x.floor
  let rest := x - (n : Rat)
  if rest < 1 / 2 then n
  else if 1 / 2 < rest then n + 1
  else if n % 2 == 0 then n else n + 1

namespace Double

/-- The exponent of the largest power of two that is at most the positive
    number `x`. -/
def binaryExponent (x : Rat) : Int :=
  let guess := (x.num.natAbs.log2 : Int) - (x.den.log2 : Int)
  if (2 : Rat) ^ guess ≤ x then guess else guess - 1

/-- The rank of the double nearest to the positive number `x`, which may lie
    past the last rank. -/
def nearestRank (x : Rat) : Nat :=
  let spacing := max (binaryExponent x - 52) (-1074)
  ((spacing + 1074) * blockLength + roundHalfEven (x / (2 : Rat) ^ spacing)).toNat

/-- The double of a sign and a rank, where the ranks past the last finite
    number stand for infinity. -/
def ofRank (negative : Bool) (rank : Nat) : Double :=
  if h : rank < 0x7FF0000000000000 then finite negative ⟨rank, h⟩ else infinite negative

/-- The double nearest to a number that is given by its sign and its
    magnitude. -/
def ofMagnitude (negative : Bool) (x : Rat) : Double :=
  if x ≤ 0 then ofRank negative 0 else ofRank negative (nearestRank x)

/-- The double nearest to a rational; zero is positive. -/
def ofRat (x : Rat) : Double :=
  if x < 0 then ofMagnitude true (-x) else ofMagnitude false x

/-- The double nearest to an integer, unless that is infinite. -/
def ofInt? (n : Int) : Option Double :=
  match ofRat (n : Rat) with
  | finite negative rank => some (finite negative rank)
  | infinite _ => none
  | nan => none

/-- The sum. Zero comes out negative only for two negative zeros, and opposite
    infinities have no sum. -/
def add : Double → Double → Double
  | nan, _ => nan
  | infinite _, nan => nan
  | infinite s, infinite t => if s == t then infinite s else nan
  | infinite s, finite _ _ => infinite s
  | finite _ _, nan => nan
  | finite _ _, infinite t => infinite t
  | finite s m, finite t n =>
    let sum := withSign s (magnitude m) + withSign t (magnitude n)
    if sum == 0 then ofRank (s && t) 0 else ofRat sum

/-- The difference. -/
def sub (a b : Double) : Double :=
  a.add b.neg

end Double

end TableStore
