import TableStore.Engine.Condition
import TableStore.Proofs.Engine.Ordering

/-!
# How Operators Go Together

Equality and order are two functions, and each has its own idea of which values
it is about. Equality is asked of any two values and says no where nothing else
is to be said, while the order has no answer for values of different classes,
and an operator that asks for it fails on them. What makes the operators go
together is that the two agree on the classes: where there is an order, being
equal is one of its three outcomes, and where there is none, only null is equal
to anything, and only to null.

Integers and floats are one class. They are compared as the numbers that they
are, with the infinite ones at the ends, and not as what one of them would be
after a conversion to the other.

## Main definitions

* `ComparisonOperator.Holds`: A comparison that holds.
* `Value.number?`: The number that a value is.
* `Value.Comparable`: Values of one class.
* `Value.Compared`: What holds of the operators for two values.

## Theorems

* `Value.compare?_numbers`: Numbers are compared as what they are.
* `Value.Comparable.exists_order`: Within a class, equality is an outcome of the order.
* `Value.incomparable`: Between classes nothing is equal and nothing is in order.
* `Value.compared`: The operators go together for any two values.
* `Value.holds_numbers`: What the operators say of numbers.
-/

namespace TableStore

/-- A comparison that holds. -/
def ComparisonOperator.Holds (op : ComparisonOperator) (v literal : Value) : Prop :=
  op.holds v literal = .ok true

/-- The number that a quantity is. -/
inductive Quantity.Is : Quantity → WithBot (WithTop ℚ) → Prop
  | negInfinite : Is .negInfinite ⊥
  | rational (x : ℚ) : Is (.rational x) (x : WithTop ℚ)
  | posInfinite : Is .posInfinite ⊤

namespace Quantity.Is

variable {p q : Quantity} {x y : WithBot (WithTop ℚ)}

theorem below (hp : p.Is x) (hq : q.Is y) : p.below q = decide (x < y) := by
  have hfinite : ∀ x : ℚ, ((x : WithTop ℚ) : WithBot (WithTop ℚ)) < ⊤ :=
    fun x => WithBot.coe_lt_coe.mpr (WithTop.coe_lt_top x)
  cases hp <;> cases hq <;> simp [Quantity.below, hfinite]

theorem same (hp : p.Is x) (hq : q.Is y) : p.same q = decide (x = y) := by
  have hfinite : ∀ x : ℚ, ((x : WithTop ℚ) : WithBot (WithTop ℚ)) ≠ ⊤ :=
    fun x => (WithBot.coe_lt_coe.mpr (WithTop.coe_lt_top x)).ne
  cases hp <;> cases hq <;> simp [Quantity.same, Bool.beq_eq_decide_eq, hfinite, (hfinite _).symm]

end Quantity.Is

namespace Value

variable {a b : Value} {x y : WithBot (WithTop ℚ)}

/-- The number that a value is, if it is one. -/
def number? : Value → Option (WithBot (WithTop ℚ))
  | int n => some ((n : ℚ) : WithTop ℚ)
  | float (.finite negative rank) =>
    some ((Double.withSign negative (Double.magnitude rank) : ℚ) : WithTop ℚ)
  | float (.infinite negative) => some (if negative then ⊥ else ⊤)
  | _ => none

theorem exists_quantity (h : a.number? = some x) : ∃ q, a.quantity? = some q ∧ q.Is x := by
  cases a with
  | int n =>
    rw [← Option.some.inj h]
    exact ⟨_, rfl, .rational n⟩
  | float d =>
    cases d with
    | finite negative rank =>
      rw [← Option.some.inj h]
      exact ⟨_, rfl, .rational _⟩
    | infinite negative =>
      rw [← Option.some.inj h]
      cases negative with
      | false => exact ⟨_, rfl, .posInfinite⟩
      | true => exact ⟨_, rfl, .negInfinite⟩
    | nan => exact absurd h (by simp [number?])
  | _ => exact absurd h (by simp [number?])

/-- Values of one class. -/
inductive Comparable : Value → Value → Prop
  | numbers {a b : Value} {x y : WithBot (WithTop ℚ)} (left : a.number? = some x)
      (right : b.number? = some y) : Comparable a b
  | bools (a b : Bool) : Comparable (bool a) (bool b)
  | texts (s t : String) : Comparable (text s) (text t)
  | bytes (s t : Bytes) : Comparable (bytes s) (bytes t)

theorem orderingOf_beq_eq {α : Type} [LinearOrder α] (x y : α) :
    (orderingOf (decide (x < y)) (decide (y < x)) == .eq) = decide (x = y) := by
  rw [← compare_eq_orderingOf, Bool.eq_iff_iff, beq_iff_eq, compare_eq_iff_eq, decide_eq_true_iff]

/-- Numbers are compared as what they are. -/
theorem compare?_numbers (ha : a.number? = some x) (hb : b.number? = some y) :
    a.compare? b = some (compare x y) ∧ a.equals b = decide (x = y) := by
  rcases exists_quantity ha with ⟨p, hp, hpx⟩
  rcases exists_quantity hb with ⟨q, hq, hqy⟩
  have hcompare : a.compare? b = some (orderingOf (p.below q) (q.below p)) := by
    cases a <;> simp only [quantity?, reduceCtorEq, Option.some.injEq] at hp <;>
      cases b <;> simp only [quantity?, reduceCtorEq, Option.some.injEq] at hq <;>
      subst hp hq <;> rfl
  refine ⟨?_, ?_⟩
  · rw [hcompare, hpx.below hqy, hqy.below hpx, compare_eq_orderingOf]
  · rw [equals, hp, hq]
    exact hpx.same hqy

/-- Within a class there is an order, and being equal is one of its outcomes. -/
theorem Comparable.exists_order (h : a.Comparable b) :
    ∃ order, a.compare? b = some order ∧ a.equals b = (order == .eq) := by
  cases h with
  | numbers ha hb =>
    rcases compare?_numbers ha hb with ⟨hcompare, hequals⟩
    exact ⟨_, hcompare, by rw [hequals, compare_eq_orderingOf, orderingOf_beq_eq]⟩
  | bools a b => cases a <;> cases b <;> exact ⟨_, rfl, rfl⟩
  | texts s t =>
    refine ⟨_, rfl, ?_⟩
    rw [orderingOf_beq_eq]
    simp [equals, quantity?, Bool.beq_eq_decide_eq]
  | bytes s t =>
    have hequals : (Value.bytes s).equals (Value.bytes t) = decide (s = t) := by
      simp [equals, quantity?, Bool.beq_eq_decide_eq]
    refine ⟨_, rfl, ?_⟩
    rw [hequals]
    convert (orderingOf_beq_eq s t).symm

theorem compare?_null (a : Value) : a.compare? null = none := by
  cases a <;> rfl

/-- Between classes there is no order, and nothing is equal to anything that is not null. -/
theorem incomparable (ha : a.IsRegular) (hb : b.IsRegular) (hnull : b.isNull = false)
    (h : ¬a.Comparable b) : a.compare? b = none ∧ a.equals b = false := by
  have hnumber : ∀ {d : Double}, (float d).IsRegular → ∃ x, (float d).number? = some x := by
    intro d hd
    cases d with
    | nan => exact absurd hd.ordered (by simp [isNaN])
    | _ => exact ⟨_, rfl⟩
  -- Values of one kind and numbers are comparable; all other pairs compute.
  cases a <;> cases b
  case bool.bool a b => exact absurd (.bools a b) h
  case text.text s t => exact absurd (.texts s t) h
  case bytes.bytes s t => exact absurd (.bytes s t) h
  case int.int n m => exact absurd (.numbers rfl rfl) h
  case int.float n d =>
    rcases hnumber hb with ⟨x, hx⟩
    exact absurd (.numbers rfl hx) h
  case float.int d n =>
    rcases hnumber ha with ⟨x, hx⟩
    exact absurd (.numbers hx rfl) h
  case float.float d e =>
    rcases hnumber ha with ⟨x, hx⟩
    rcases hnumber hb with ⟨y, hy⟩
    exact absurd (.numbers hx hy) h
  all_goals first
    | exact absurd ha.scalar id
    | exact absurd hb.scalar id
    | exact absurd hnull Bool.false_ne_true.symm
    | exact ⟨rfl, rfl⟩

/-- What holds of the operators for two values: each of those that compare has an outcome, the two
    negations are negations, and the others are put together from equality and a strict order. -/
structure Compared (v literal : Value) : Prop where
  decided : ∀ op : ComparisonOperator, op.isPattern = false → (∀ s, op ≠ .unknown s) →
    ∃ holds, op.holds v literal = .ok holds
  notEqual : ComparisonOperator.notEqual.Holds v literal ↔ ¬ComparisonOperator.equal.Holds v literal
  notLike : ∀ matched, ComparisonOperator.like.holds v literal = .ok matched
    ↔ ComparisonOperator.notLike.holds v literal = .ok !matched
  like_decided : (∃ matched, ComparisonOperator.like.holds v literal = .ok matched)
    ↔ v.isNull = true ∨ literal.isNull = true ∨ v.hasText = true ∧ literal.hasText = true
  greaterOrEqual : literal.isNull = false → (ComparisonOperator.greaterOrEqual.Holds v literal
    ↔ ComparisonOperator.greater.Holds v literal ∨ ComparisonOperator.equal.Holds v literal)
  lessOrEqual : literal.isNull = false → (ComparisonOperator.lessOrEqual.Holds v literal
    ↔ ComparisonOperator.less.Holds v literal ∨ ComparisonOperator.equal.Holds v literal)
  exclusive : ¬(ComparisonOperator.less.Holds v literal ∧ ComparisonOperator.equal.Holds v literal)
    ∧ ¬(ComparisonOperator.less.Holds v literal ∧ ComparisonOperator.greater.Holds v literal)
    ∧ ¬(ComparisonOperator.equal.Holds v literal ∧ ComparisonOperator.greater.Holds v literal)
  exhaustive : v.Comparable literal → ComparisonOperator.less.Holds v literal
    ∨ ComparisonOperator.equal.Holds v literal ∨ ComparisonOperator.greater.Holds v literal

theorem holds_less : ComparisonOperator.less.Holds a b ↔ a.compare? b = some .lt := by
  dsimp only [ComparisonOperator.Holds, ComparisonOperator.holds, ComparisonOperator.accepts]
  rcases a.compare? b with _ | _ | _ | _ <;> simp

theorem holds_greater : ComparisonOperator.greater.Holds a b ↔ a.compare? b = some .gt := by
  dsimp only [ComparisonOperator.Holds, ComparisonOperator.holds, ComparisonOperator.accepts]
  rcases a.compare? b with _ | _ | _ | _ <;> simp

theorem holds_lessOrEqual : ComparisonOperator.lessOrEqual.Holds a b
    ↔ a.compare? b = some .lt ∨ a.compare? b = some .eq := by
  dsimp only [ComparisonOperator.Holds, ComparisonOperator.holds, ComparisonOperator.accepts]
  rcases a.compare? b with _ | _ | _ | _ <;> simp

theorem holds_greaterOrEqual : ComparisonOperator.greaterOrEqual.Holds a b
    ↔ a.compare? b = some .gt ∨ a.compare? b = some .eq := by
  dsimp only [ComparisonOperator.Holds, ComparisonOperator.holds, ComparisonOperator.accepts]
  rcases a.compare? b with _ | _ | _ | _ <;> simp

/-- Equality and order agree, except that null is equal to null and not in order with it. -/
theorem holds_equal (ha : a.IsRegular) (hb : b.IsRegular) (hnull : b.isNull = false) :
    ComparisonOperator.equal.Holds a b ↔ a.compare? b = some .eq := by
  rw [ComparisonOperator.Holds, ComparisonOperator.holds, Except.ok.injEq]
  by_cases hsame : a.Comparable b
  · rcases hsame.exists_order with ⟨order, horder, hequals⟩
    rw [horder, hequals, beq_iff_eq, Option.some.injEq]
  · rcases incomparable ha hb hnull hsame with ⟨hcompare, hequals⟩
    rw [hcompare, hequals]
    simp

/-- Whether a value is like a pattern is decided if both have a text or one of them is null. -/
theorem like_decided : (∃ matched, ComparisonOperator.like.holds a b = .ok matched)
    ↔ a.isNull = true ∨ b.isNull = true ∨ a.hasText = true ∧ b.hasText = true := by
  rw [ComparisonOperator.holds, matchesLike]
  by_cases hnull : (a.isNull || b.isNull) = true
  · rw [if_pos hnull]
    rw [Bool.or_eq_true] at hnull
    exact ⟨fun _ => hnull.imp_right Or.inl, fun _ => ⟨false, rfl⟩⟩
  · rw [if_neg hnull, like]
    rw [Bool.or_eq_true, not_or] at hnull
    by_cases htext : (a.hasText && b.hasText) = true
    · rw [if_pos htext]
      exact ⟨fun _ => Or.inr (Or.inr (Bool.and_eq_true_iff.mp htext)), fun _ => ⟨_, rfl⟩⟩
    · rw [if_neg htext]
      refine ⟨fun ⟨_, h⟩ => absurd h (by simp), fun h => absurd ?_ htext⟩
      exact Bool.and_eq_true_iff.mpr ((h.resolve_left hnull.1).resolve_left hnull.2)

/-- The two operators for patterns have opposite outcomes and fail together. -/
theorem notLike_iff (matched : Bool) : ComparisonOperator.like.holds a b = .ok matched
    ↔ ComparisonOperator.notLike.holds a b = .ok !matched := by
  rw [ComparisonOperator.holds, ComparisonOperator.holds]
  cases matchesLike a b <;> simp

/-- The operators go together for any two values. -/
theorem compared (ha : a.IsRegular) (hb : b.IsRegular) : a.Compared b where
  decided op hpattern hknown := by
    cases op with
    | equal => exact ⟨_, rfl⟩
    | notEqual => exact ⟨_, rfl⟩
    | like => exact absurd hpattern Bool.noConfusion
    | notLike => exact absurd hpattern Bool.noConfusion
    | unknown s => exact absurd rfl (hknown s)
    | _ =>
      dsimp only [ComparisonOperator.holds]
      cases a.compare? b <;> exact ⟨_, rfl⟩
  notEqual := by
    rw [ComparisonOperator.Holds, ComparisonOperator.Holds, ComparisonOperator.holds,
      ComparisonOperator.holds, Except.ok.injEq, Except.ok.injEq, Bool.not_eq_true',
      Bool.not_eq_true]
  notLike := notLike_iff
  like_decided := like_decided
  greaterOrEqual hnull := by rw [holds_greaterOrEqual, holds_greater, holds_equal ha hb hnull]
  lessOrEqual hnull := by rw [holds_lessOrEqual, holds_less, holds_equal ha hb hnull]
  exclusive := by
    -- What is in order with a value is not null, so equality is an outcome of the order.
    have hordered : ∀ {order}, a.compare? b = some order → b.isNull = false := by
      intro order h
      cases b with
      | null =>
        rw [compare?_null] at h
        exact absurd h (by simp)
      | _ => rfl
    rw [holds_less, holds_greater]
    refine ⟨fun ⟨hless, hequal⟩ => ?_, fun ⟨hless, hgreater⟩ => ?_, fun ⟨hequal, hgreater⟩ => ?_⟩
    · rw [holds_equal ha hb (hordered hless), hless] at hequal
      exact absurd hequal (by simp)
    · rw [hless] at hgreater
      exact absurd hgreater (by simp)
    · rw [holds_equal ha hb (hordered hgreater), hgreater] at hequal
      exact absurd hequal (by simp)
  exhaustive hsame := by
    rcases hsame.exists_order with ⟨order, horder, hequals⟩
    rw [holds_less, holds_greater, ComparisonOperator.Holds, ComparisonOperator.holds, hequals,
      horder]
    cases order <;> simp

/-- One number is below another if it is less. -/
theorem holds_numbers (ha : a.number? = some x) (hb : b.number? = some y) :
    (ComparisonOperator.less.Holds a b ↔ x < y) ∧ (ComparisonOperator.equal.Holds a b ↔ x = y)
      ∧ (ComparisonOperator.greater.Holds a b ↔ y < x) := by
  rcases compare?_numbers ha hb with ⟨hcompare, hequals⟩
  rw [holds_less, holds_greater, ComparisonOperator.Holds, ComparisonOperator.holds, hcompare,
    hequals, Option.some.injEq, Option.some.injEq, Except.ok.injEq, decide_eq_true_iff,
    compare_lt_iff_lt, compare_gt_iff_gt]
  exact ⟨Iff.rfl, Iff.rfl, Iff.rfl⟩

end Value

end TableStore
