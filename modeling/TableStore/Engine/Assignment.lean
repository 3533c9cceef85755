import TableStore.Statement
import TableStore.Value.ColumnType

/-!
# Evaluating Assignments

The value that an assignment gives a column. Arithmetic starts from the
column's value, with null counting as zero, and the column has to hold a
number. Integers stay integers; a float on either side makes the result a
float.

## Main definitions

* `Arithmetic.compute`: A number changed by another.
* `Assignment.apply`: The value that an assignment gives.
-/

namespace TableStore

namespace Arithmetic

/-- The sum or difference of two integers. -/
def ofInts (op : Arithmetic) (a b : Int) : Int :=
  match op with
  | plus => a + b
  | minus => a - b

/-- The sum or difference of two doubles. -/
def ofDoubles (op : Arithmetic) (a b : Double) : Double :=
  match op with
  | plus => a.add b
  | minus => a.sub b

/-- The double that an operand of float arithmetic is. -/
def operand (n : Int) : Except Fault Double :=
  match Double.ofInt? n with
  | some d => .ok d
  | none => .error .beyondDouble

/-- A number changed by another. A truth value counts as one or zero. -/
def compute (op : Arithmetic) (a b : Value) : Except Fault Value :=
  match a, b with
  | .int a, .int b => .ok (.int (op.ofInts a b))
  -- Only the second of the two may be a truth value.
  | .int a, .bool b => .ok (.int (op.ofInts a b.toInt))
  | .int a, .float b => do
    let a ← operand a
    .ok (.float (op.ofDoubles a b))
  | .float a, .int b => do
    let b ← operand b
    .ok (.float (op.ofDoubles a b))
  | .float a, .bool b => do
    let b ← operand b.toInt
    .ok (.float (op.ofDoubles a b))
  | .float a, .float b => .ok (.float (op.ofDoubles a b))
  | _, _ => .error .notArithmetic

end Arithmetic

/-- The value that an assignment gives a column whose value is `current`. -/
def Assignment.apply (assignment : Assignment) (current : Value) : Except Fault Value :=
  match assignment.arithmetic with
  | none => .ok assignment.value
  | some op =>
    match current with
    | .null => op.compute (.int 0) assignment.value
    | .int n => op.compute (.int n) assignment.value
    | .float d => op.compute (.float d) assignment.value
    | v => .error (typeMismatch assignment.column "a number" v)

end TableStore
