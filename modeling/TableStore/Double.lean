/-!
# Double Precision Numbers

Floating point numbers are kept as data, not as machine words, so that every
rule about them is a rule about integers and rationals. The finite numbers of
one sign lie on the number line in a row: they are ranked 0, 1, 2, …, and a
number is its sign together with its rank. Ranks come in blocks of 2⁵². The
first block holds the numbers below the smallest normal one, spaced evenly;
every later block doubles the spacing.

There is a single NaN, and a zero of each sign. Two doubles are the same value
of this type exactly when they are the same number written the same way, which
is finer than numerical equality: the two zeros differ here.

## Main definitions

* `Double`: A double precision number.
* `Double.magnitude`: The number at a rank, as a rational.
* `Double.toRat?`: The value of a finite number.
* `Double.toInt?`: The value of a finite number that is an integer.
-/

namespace TableStore

/-- A double precision number: a finite one is its sign and its rank among the
    finite numbers of that sign. -/
inductive Double where
  | finite (negative : Bool) (rank : Fin 0x7FF0000000000000)
  | infinite (negative : Bool)
  | nan
  deriving DecidableEq

namespace Double

/-- The length of a block of evenly spaced ranks. -/
def blockLength : Nat := 0x10000000000000

/-- The distance of two neighbours in the block of a rank, as a power of
    two. -/
def scale (rank : Nat) : Int :=
  (max (rank / blockLength) 1 : Nat) - 1075

/-- How many times that distance the number at a rank is. -/
def significand (rank : Nat) : Nat :=
  if rank < blockLength then rank else blockLength + rank % blockLength

/-- The number at a rank. -/
def magnitude (rank : Nat) : Rat :=
  (significand rank : Rat) * (2 : Rat) ^ scale rank

/-- A number with its sign. -/
def withSign (negative : Bool) (x : Rat) : Rat :=
  if negative then -x else x

/-- The value of a finite number. -/
def toRat? : Double → Option Rat
  | finite negative rank => some (withSign negative (magnitude rank))
  | infinite _ => none
  | nan => none

/-- The value of a finite number that is an integer. -/
def toInt? (d : Double) : Option Int :=
  match d.toRat? with
  | some x => if x.den == 1 then some x.num else none
  | none => none

/-- Whether the number is neither infinite nor NaN. -/
def isFinite : Double → Bool
  | finite _ _ => true
  | infinite _ => false
  | nan => false

/-- The number with the opposite sign. -/
def neg : Double → Double
  | finite negative rank => finite (!negative) rank
  | infinite negative => infinite (!negative)
  | nan => nan

end Double

end TableStore
