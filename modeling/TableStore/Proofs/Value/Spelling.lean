import TableStore.Proofs.Key.IndexValue
import TableStore.Proofs.Value.ColumnType

/-!
# Equal Values With Different Texts

Keys of rows are compared in two ways. A condition compares them as values, and
the store compares them as texts, since a row is filed under the text of its
key. What has one text need not be one value, and what is one value need not
have one text. The second happens among numbers only: an integer and a float can
be the same number, and so are the two zeros.

A column of a checked type holds values of one kind, so there it is left to the
zeros of a column of floats.

## Main definitions

* `Value.SpelledApart`: Numbers that may be equal and are written differently.

## Theorems

* `Value.eq_or_spelledApart`: Equal values are the same, or written differently.
* `Value.equals_self`: A value equals itself.
* `Value.SpelledApart.zeros_of_holds`: Which of them a column of a checked type
  may hold.
-/

namespace TableStore

namespace Value

/-- Numbers that may be equal and are written differently: an integer and a
    float, and the two zeros. -/
inductive SpelledApart : Value → Value → Prop where
  | intFloat (n : Int) (d : Double) : SpelledApart (int n) (float d)
  | floatInt (d : Double) (n : Int) : SpelledApart (float d) (int n)
  | zeros (negative : Bool) :
      SpelledApart (float (.finite negative 0)) (float (.finite (!negative) 0))

/-- Equal values are the same, or they are written differently. -/
theorem eq_or_spelledApart {a b : Value} (h : a.equals b = true) : a = b ∨ a.SpelledApart b := by
  rcases cases_of_equals h with rfl | ⟨n, d, -, ⟨rfl, rfl⟩ | ⟨rfl, rfl⟩⟩ | ⟨negative, rfl, rfl⟩
  · exact Or.inl rfl
  · exact Or.inr (.intFloat n d)
  · exact Or.inr (.floatInt d n)
  · exact Or.inr (.zeros negative)

/-- Only null equals null. -/
theorem null_equals (v : Value) : null.equals v = v.isNull := by
  cases v <;> rfl

/-- A value equals itself, unless it is the number that has no place in the order. -/
theorem equals_self {v : Value} (h : v.isNaN = false) : v.equals v = true := by
  cases v with
  | float d =>
    cases d with
    | finite negative rank => simp [equals, quantity?, Quantity.ofDouble, Quantity.same]
    | infinite negative => cases negative <;> rfl
    | nan => exact absurd h (by simp [isNaN])
  | _ => simp [equals, quantity?, Quantity.same]

/-- A column that holds both of them is one of floats, if its type is checked, and
    they are the two zeros. -/
theorem SpelledApart.zeros_of_holds {a b : Value} (h : a.SpelledApart b) {type : ColumnType}
    (ha : type.Holds a) (hb : type.Holds b) :
    type = .float ∧ ∃ negative,
      a = float (.finite negative 0) ∧ b = float (.finite (!negative) 0) := by
  -- One of the two is a float, and the only checked type with floats is their own.
  have hfloat : ∀ {d : Double}, type.Holds (float d) → type = .float := by
    intro d hd
    cases type with
    | float => rfl
    | _ => rcases hd with hd | ⟨_, hd⟩ <;> cases hd
  have hint : ∀ {n : Int}, type.Holds (int n) → type ≠ .float := by
    rintro n hn rfl
    rcases hn with hn | ⟨_, hn⟩ <;> cases hn
  cases h with
  | intFloat n d => exact absurd (hfloat hb) (hint ha)
  | floatInt d n => exact absurd (hfloat ha) (hint hb)
  | zeros negative => exact ⟨hfloat ha, negative, rfl, rfl⟩

end Value

end TableStore
