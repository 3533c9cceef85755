import Mathlib
import TableStore.Engine.Ordering
import TableStore.Proofs.Row
import TableStore.Proofs.Sorting.Stable

/-!
# The Order of Rows Is Total

Values of one class are compared as what they are, and values of different
classes by the names of their types. Nothing says that these two rules go
together: integers and floats are one class with two names, so the order would
have a cycle if the name of a third type came between theirs. None does. The
classes lie in a row, and the order of the values is the order of places in the
sum of the classes.

NaN has no place, as it compares equal to every number. Rows are compared by
places only if none of the values that they are sorted by is NaN, and for these
rows the order is a total one. Whether a value is null is asked before its
place, and it is asked the same way round if the order is descending.

## Main definitions

* `Place`, `Value.place`: The places of values.
* `OrderItem.rank`, `rankRows`: The order of the places of rows.
* `RanksRows`: A list of columns that puts rows in an order.

## Theorems

* `compareValues_eq`: The order of values is that of their places.
* `compareRows_eq`: The order of rows is that of their places.
* `ranksRows`: Every list of columns puts rows in an order.
* `stablySorted_sortRows`: Rows are sorted stably.
-/

namespace TableStore

/-- Bytes are in the order of the numbers that they are. -/
instance instLinearOrderByte : LinearOrder UInt8 where
  le_refl := UInt8.le_refl
  le_trans _ _ _ := UInt8.le_trans
  le_antisymm _ _ := UInt8.le_antisymm
  le_total := UInt8.le_total
  lt_iff_le_not_ge a b := by
    rw [UInt8.le_iff_toNat_le, UInt8.le_iff_toNat_le, UInt8.lt_iff_toNat_lt]
    omega
  toDecidableLE := inferInstance

/-- The places of quantities. The infinite ones are at the ends. -/
abbrev Quantity.Place := Unit ⊕ₗ Rat ⊕ₗ Unit

/-- The place of a quantity. -/
def Quantity.place : Quantity → Quantity.Place
  | negInfinite => Sum.inlₗ ()
  | rational x => Sum.inrₗ (Sum.inlₗ x)
  | posInfinite => Sum.inrₗ (Sum.inrₗ ())
  | undefined => Sum.inlₗ ()

/-- The classes of values in the order of the names of their types. Integers
    and floats are one class, and all arrays are at one place, as all objects
    are. -/
abbrev Place := Unit ⊕ₗ Bool ⊕ₗ Bytes ⊕ₗ Unit ⊕ₗ Quantity.Place ⊕ₗ Unit ⊕ₗ List Char

/-- The place of a value. -/
def Value.place : Value → Place
  | null => Sum.inlₗ ()
  | bool b => Sum.inrₗ (Sum.inlₗ b)
  | bytes b => Sum.inrₗ (Sum.inrₗ (Sum.inlₗ b))
  | object _ => Sum.inrₗ (Sum.inrₗ (Sum.inrₗ (Sum.inlₗ ())))
  | int n => Sum.inrₗ (Sum.inrₗ (Sum.inrₗ (Sum.inrₗ (Sum.inlₗ (Quantity.place (.rational n))))))
  | float d => Sum.inrₗ (Sum.inrₗ (Sum.inrₗ (Sum.inrₗ (Sum.inlₗ (Quantity.place (.ofDouble d))))))
  | array _ => Sum.inrₗ (Sum.inrₗ (Sum.inrₗ (Sum.inrₗ (Sum.inrₗ (Sum.inlₗ ())))))
  | text s => Sum.inrₗ (Sum.inrₗ (Sum.inrₗ (Sum.inrₗ (Sum.inrₗ (Sum.inrₗ s.toList)))))

theorem compare_eq_orderingOf {α : Type} [LinearOrder α] (a b : α) :
    compare a b = orderingOf (decide (a < b)) (decide (b < a)) := by
  rcases lt_trichotomy a b with hlt | heq | hgt
  · rw [compare_lt_iff_lt.mpr hlt, decide_eq_true hlt, decide_eq_false hlt.asymm]
    rfl
  · rw [compare_eq_iff_eq.mpr heq, decide_eq_false heq.not_lt, decide_eq_false heq.symm.not_lt]
    rfl
  · rw [compare_gt_iff_gt.mpr hgt, decide_eq_true hgt]
    rfl

theorem Quantity.below_eq {x y : Quantity} (hx : x ≠ undefined) (hy : y ≠ undefined) :
    x.below y = decide (x.place < y.place) := by
  cases x <;> cases y <;> simp_all [below, place]

theorem Value.quantity?_ne_undefined {a : Value} (ha : a.isNaN = false) {x : Quantity}
    (hx : a.quantity? = some x) : x ≠ .undefined := by
  intro hundefined
  rw [hundefined] at hx
  cases a with
  | int n => exact absurd hx (by simp [quantity?])
  | float d =>
    cases d with
    | nan => exact absurd ha (by simp [isNaN])
    | infinite negative =>
      cases negative <;> exact absurd hx (by simp [quantity?, Quantity.ofDouble])
    | finite negative rank => exact absurd hx (by simp [quantity?, Quantity.ofDouble])
  | _ => exact absurd hx (by simp [quantity?])

/-- The order of values is that of their places. -/
theorem compareValues_eq {a b : Value} (ha : a.isNaN = false) (hb : b.isNaN = false) :
    compareValues a b = compare a.place b.place := by
  rw [compare_eq_orderingOf]
  cases a <;> cases b
  -- Within a class values are compared as what they are.
  case bool.bool x y => cases x <;> cases y <;> rfl
  case text.text s t =>
    simp only [compareValues, Value.compare?, Value.place, String.lt_iff, Sum.Lex.inr_lt_inr_iff]
  case bytes.bytes x y => simp [compareValues, Value.compare?, Value.place]
  case int.int | int.float | float.int | float.float =>
    simp only [compareValues, Value.compare?, Value.quantity?, Value.place,
      Quantity.below_eq (Value.quantity?_ne_undefined ha rfl) (Value.quantity?_ne_undefined hb rfl),
      Quantity.below_eq (Value.quantity?_ne_undefined hb rfl) (Value.quantity?_ne_undefined ha rfl)]
    simp
  -- Between classes the names of the types decide.
  all_goals simp only [compareValues, Value.compare?, Value.quantity?, Value.typeName, Value.place,
    String.reduceLT, lt_irrefl, Sum.Lex.inr_lt_inr_iff, Sum.Lex.inl_lt_inr,
    Sum.Lex.not_inr_lt_inl]

/-- The order of the places that rows have in a column, null being last whatever
    the direction. -/
def OrderItem.rank (item : OrderItem) : Row → Row → Ordering :=
  compareLex (compareOn fun row => (Row.value row item.column).isNull)
    fun a b =>
      if item.descending then compareOn (fun row => (Row.value row item.column).place) b a
      else compareOn (fun row => (Row.value row item.column).place) a b

/-- The order of the places of rows: that of the first column in which their
    places differ. -/
def rankRows (order : List OrderItem) : Row → Row → Ordering :=
  order.foldr (fun item rest => compareLex item.rank rest) fun _ _ => .eq

instance (item : OrderItem) : Std.TransCmp item.rank := by
  rw [OrderItem.rank]
  cases item.descending
  · simp only [Bool.false_eq_true, if_false]
    infer_instance
  · simp only [if_true]
    infer_instance

instance (order : List OrderItem) : Std.TransCmp (rankRows order) := by
  induction order with
  | nil => exact { eq_swap := rfl, isLE_trans := fun _ _ => rfl }
  | cons item rest ih =>
    rw [rankRows, List.foldr_cons]
    exact inferInstanceAs (Std.TransCmp (compareLex item.rank (rankRows rest)))

/-- Values in a column are in the order of their places. -/
theorem OrderItem.compare_eq (item : OrderItem) {a b : Row}
    (ha : (Row.value a item.column).isNaN = false) (hb : (Row.value b item.column).isNaN = false) :
    item.compare (Row.value a item.column) (Row.value b item.column) = item.rank a b := by
  rw [compare, rank, compareLex, compareOn, compareOn, compareOn]
  rcases hx : (Row.value a item.column).isNull with _ | _ <;>
    rcases hy : (Row.value b item.column).isNull with _ | _
  · rw [compareValues_eq ha hb]
    cases item.descending
    · rfl
    · exact Std.OrientedCmp.eq_swap.symm
  · rfl
  · rfl
  · -- Null is the one value that is null, so both are at one place.
    have hself : Ord.compare Value.null.place Value.null.place = .eq := compare_eq_iff_eq.mpr rfl
    rw [Value.eq_null_of_isNull hx, Value.eq_null_of_isNull hy]
    cases item.descending
    · exact hself.symm
    · exact hself.symm

/-- The order of rows is that of their places. -/
theorem compareRows_eq {order : List OrderItem} {a b : Row} (ha : isOrdered order a = true)
    (hb : isOrdered order b = true) : compareRows order a b = rankRows order a b := by
  induction order with
  | nil => rfl
  | cons item rest ih =>
    simp only [isOrdered, List.all_cons, Bool.and_eq_true, Bool.not_eq_true'] at ha hb
    rw [compareRows, item.compare_eq ha.1 hb.1, ih ha.2 hb.2]
    rfl

theorem compareRows_append (before after : List OrderItem) (a b : Row) :
    compareRows (before ++ after) a b = (compareRows before a b).then (compareRows after a b) := by
  induction before with
  | nil => rfl
  | cons item before ih =>
    rw [List.cons_append, compareRows, compareRows, ih, Ordering.then_assoc]

/-- A list of columns that puts the rows that have a place in a total order, in
    which null comes last in each column. -/
structure RanksRows (order : List OrderItem) : Prop where
  total : Std.TransCmp fun a b : { row : Row // isOrdered order row = true } =>
    compareRows order a.1 b.1
  null_last : ∀ before item after a b, order = before ++ item :: after →
    compareRows before a b = .eq → (Row.value a item.column).isNull = false →
    (Row.value b item.column).isNull = true → compareRows order a b = .lt

/-- Every list of columns puts rows in an order. -/
theorem ranksRows (order : List OrderItem) : RanksRows order where
  total := by
    have hrank : (fun a b : { row : Row // isOrdered order row = true } =>
        compareRows order a.1 b.1) = fun a b => rankRows order a.1 b.1 := by
      funext a b
      exact compareRows_eq a.2 b.2
    rw [hrank]
    exact { eq_swap := Std.OrientedCmp.eq_swap, isLE_trans := Std.TransCmp.isLE_trans }
  null_last before item after a b horder hbefore ha hb := by
    rw [horder, compareRows_append, hbefore, compareRows, OrderItem.compare, ha, hb]
    rfl

/-- Rows are sorted stably, and in no other way can they be. -/
theorem stablySorted_sortRows {order : List OrderItem} {rows : List Row}
    (h : ∀ row ∈ rows, isOrdered order row = true) :
    StablySorted (compareRows order) rows (sortRows order rows)
      ∧ ∀ sorted, StablySorted (compareRows order) rows sorted → sorted = sortRows order rows := by
  have hrank : ∀ a ∈ rows, ∀ b ∈ rows, compareRows order a b = rankRows order a b := by
    intro a ha b hb
    exact compareRows_eq (h a ha) (h b hb)
  -- Among rows that can all be ordered, comparing them is comparing their ranks.
  have hmerge : sortRows order rows = rows.mergeSort fun a b => rankRows order a b != .gt := by
    rw [sortRows, if_pos (List.all_eq_true.mpr h)]
    have hmap := List.map_mergeSort (r := fun a b => compareRows order a b != .gt)
      (s := fun a b => rankRows order a b != .gt) (f := id) fun a ha b hb => by
        rw [hrank a ha b hb, id, id]
    rw [List.map_id, List.map_id] at hmap
    exact hmap
  have hsorted : StablySorted (rankRows order) rows (sortRows order rows) := by
    rw [hmerge]
    exact stablySorted_mergeSort rows
  refine ⟨hsorted.congr fun a ha b hb => (hrank a ha b hb).symm, fun sorted hother => ?_⟩
  exact (hother.congr hrank).unique hsorted

end TableStore
