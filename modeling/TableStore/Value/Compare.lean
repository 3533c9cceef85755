import TableStore.Value

/-!
# Equality and Order of Values

Values are compared within four classes: numbers, truth values, text and
bytes. Integers and floats are one class and compare by their exact numeric
value, however large. Nothing in one class equals anything in another, and the
order relates values of one class only.

NaN equals nothing, not even itself, and is neither above nor below any
number. Arrays and objects have no order at all.

## Main definitions

* `Quantity`: The numeric value of a number.
* `Value.quantity?`: The numeric value of a value that is a number.
* `Value.equals`: Equality of values; null equals only null.
* `Value.compare?`: The order of two values of one class.
-/

namespace TableStore

/-- The numeric value of a number. -/
inductive Quantity where
  | negInfinite
  | rational (x : Rat)
  | posInfinite
  | undefined
  deriving DecidableEq

namespace Quantity

/-- The numeric value of a double. -/
def ofDouble : Double → Quantity
  | .finite negative rank => rational (Double.withSign negative (Double.magnitude rank))
  | .infinite negative => if negative then negInfinite else posInfinite
  | .nan => undefined

/-- Whether one quantity is below another. -/
def below : Quantity → Quantity → Bool
  | undefined, _ => false
  | _, undefined => false
  | negInfinite, negInfinite => false
  | negInfinite, _ => true
  | rational _, negInfinite => false
  | rational x, rational y => decide (x < y)
  | rational _, posInfinite => true
  | posInfinite, _ => false

/-- Whether two quantities are the same number. -/
def same : Quantity → Quantity → Bool
  | negInfinite, negInfinite => true
  | posInfinite, posInfinite => true
  | rational x, rational y => x == y
  | _, _ => false

end Quantity

/-- The outcome of comparing two values of which `below` and `above` say
    whether the first is below or above the second. -/
def orderingOf (below above : Bool) : Ordering :=
  if above then .gt else if below then .lt else .eq

namespace Value

/-- The numeric value of a value that is a number. -/
def quantity? : Value → Option Quantity
  | int n => some (.rational n)
  | float d => some (.ofDouble d)
  | _ => none

/-- Equality of values. Null equals only null, numbers are equal if they are
    the same number, and values of different classes are never equal. -/
def equals (a b : Value) : Bool :=
  match a.quantity?, b.quantity? with
  | some x, some y => x.same y
  | none, none => a == b
  | _, _ => false

/-- The order of two values of one class. Text is ordered by code points and
    bytes lexicographically. -/
def compare? (a b : Value) : Option Ordering :=
  match a, b with
  | bool a, bool b => some (orderingOf (!a && b) (a && !b))
  | text a, text b => some (orderingOf (decide (a < b)) (decide (b < a)))
  | bytes a, bytes b => some (orderingOf (decide (a < b)) (decide (b < a)))
  | a, b =>
    match a.quantity?, b.quantity? with
    | some x, some y => some (orderingOf (x.below y) (y.below x))
    | _, _ => none

end Value

end TableStore
