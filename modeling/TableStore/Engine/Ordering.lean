import TableStore.Sorting.ByRuns
import TableStore.Statement
import TableStore.Value.Compare

/-!
# Sorting Rows

The order that a query asks for. Values of one class are in their own order,
and values of different classes are in the order of the names of their types.
Null comes last, whether the order is ascending or descending. Rows that
compare equal keep the order in which they were found.

NaN compares equal to every number, which does not make the numbers equal, so
with a NaN among the values there is no order to sort by. Such rows are merged
by runs. Without one the order is total, so every way of sorting that keeps
equal rows in place has the same result.

## Main definitions

* `compareValues`: The order of two values that are not null.
* `compareRows`: The order of two rows.
* `isOrdered`: Whether a row has a place in the order.
* `sortRows`: Rows in the order that a query asks for.
-/

namespace TableStore

/-- The order of two values that are not null. -/
def compareValues (a b : Value) : Ordering :=
  match a.compare? b with
  | some order => order
  | none => orderingOf (decide (a.typeName < b.typeName)) (decide (b.typeName < a.typeName))

/-- The order of two values in a column that is sorted by. Null is last. -/
def OrderItem.compare (item : OrderItem) (a b : Value) : Ordering :=
  match a.isNull, b.isNull with
  | true, true => .eq
  | true, false => .gt
  | false, true => .lt
  | false, false =>
    if item.descending then (compareValues a b).swap else compareValues a b

/-- The order of two rows: that of the first column in which they differ. -/
def compareRows (order : List OrderItem) (a b : Row) : Ordering :=
  match order with
  | [] => .eq
  | item :: rest =>
    (item.compare (Row.value a item.column) (Row.value b item.column)).then (compareRows rest a b)

/-- Whether a row has a place in the order: none of the values that it is
    sorted by is NaN. -/
def isOrdered (order : List OrderItem) (row : Row) : Bool :=
  order.all fun item => !(Row.value row item.column).isNaN

/-- Rows in the order that a query asks for. -/
def sortRows (order : List OrderItem) (rows : List Row) : List Row :=
  if rows.all (isOrdered order) then rows.mergeSort fun a b => compareRows order a b != .gt
  else Sorting.byRuns (fun a b => compareRows order a b == .lt) rows

end TableStore
