import TableStore.Key.IndexValue
import TableStore.Proofs.Double.Decimal
import TableStore.Value.Compare

/-!
# Equal Values Share an Index Key

An index finds the rows with a value by the bytes of the value, while a
condition compares values as numbers, texts and so on. The two agree in one
direction, and that is the one that matters: values that are equal have the
same bytes, so no row that satisfies a condition is missed. The two kinds of
number share their bytes because a float without a fraction is written as an
integer, and this covers the two zeros. A float with a fraction is neither
zero nor infinite, and then its sign and its rank follow from its value.

## Theorems

* `Double.withinDigitLimit_of_toInt?`: No integral double is beyond the digit
  limit.
* `Value.cases_of_equals`: Which values are equal.
* `Key.encodeIndexValue_of_equals`: Equal values have the same bytes.
* `Key.encodeIndexValue_error`: Why a value may have no bytes.
-/

namespace TableStore

namespace Double

theorem withSign_injective {s t : Bool} {m n : Rat} (hm : 0 ≤ m) (hn : 0 ≤ n)
    (h : withSign s m = withSign t n) (hne : withSign s m ≠ 0) : s = t ∧ m = n := by
  cases s <;> cases t
  · exact ⟨rfl, h⟩
  · simp only [withSign, Bool.false_eq_true, if_false, if_true] at h hne
    exact absurd (le_antisymm (by linarith) hm) hne
  · simp only [withSign, Bool.false_eq_true, if_false, if_true] at h hne
    exact absurd (neg_eq_zero.mpr (le_antisymm (by linarith) hm)) hne
  · exact ⟨rfl, neg_injective h⟩

theorem magnitude_nonneg (rank : Nat) : 0 ≤ magnitude rank := by
  rw [← magnitude_zero]
  exact magnitude_strictMono.monotone (Nat.zero_le rank)

/-- No integral double is beyond the digit limit. -/
theorem withinDigitLimit_of_toInt? {d : Double} {n : Int} (h : d.toInt? = some n) :
    Text.withinDigitLimit n = true := by
  cases d with
  | infinite negative => exact absurd h (by simp [toInt?, toRat?])
  | nan => exact absurd h (by simp [toInt?, toRat?])
  | finite negative rank =>
    simp only [toInt?, toRat?] at h
    split at h
    · rename_i hden
      rw [beq_iff_eq] at hden
      have hn : ((n : Int) : Rat) = withSign negative (magnitude rank) := by
        rw [← Option.some.inj h]
        exact Rat.coe_int_num_of_den_eq_one hden
      have habs : ((n.natAbs : Nat) : Rat) = magnitude rank := by
        rw [Nat.cast_natAbs, Int.cast_abs, hn, withSign]
        have hpos := magnitude_nonneg rank
        cases negative
        · simp only [Bool.false_eq_true, if_false, abs_of_nonneg hpos]
        · simp only [if_true, abs_neg, abs_of_nonneg hpos]
      -- The largest doubles have some three hundred digits.
      have hlt : ((n.natAbs : Nat) : Rat) < 10 ^ 310 := by
        have hend : magnitude rank < 2 ^ (1024 : Int) := by
          rw [← magnitude_end]
          exact magnitude_strictMono rank.isLt
        rw [habs]
        exact_mod_cast hend.trans end_lt_ten_zpow
      have hdigits : (Nat.toDigits 10 n.natAbs).length ≤ 310 :=
        (Nat.length_toDigits_le_iff (by decide) (by decide)).mpr (by exact_mod_cast hlt)
      rw [Text.withinDigitLimit, decide_eq_true_eq, Text.digitLimit]
      omega
    · exact absurd h (by simp)

/-- Doubles with the same value are the same, or they are the two zeros. -/
theorem eq_or_zeros_of_same {a b : Double}
    (h : (Quantity.ofDouble a).same (Quantity.ofDouble b) = true) :
    a = b ∨ ∃ negative, a = finite negative 0 ∧ b = finite (!negative) 0 := by
  rcases a with ⟨s, m⟩ | s | _ <;> rcases b with ⟨t, n⟩ | t | _
  case finite.finite =>
    simp only [Quantity.ofDouble, Quantity.same, beq_iff_eq] at h
    by_cases hzero : withSign s (magnitude m) = 0
    · -- Only the first rank has the magnitude zero.
      have hrank : ∀ {u : Bool} {k : Fin 0x7FF0000000000000},
          withSign u (magnitude k) = 0 → k = 0 := by
        intro u k hk
        refine Fin.ext (magnitude_strictMono.injective ?_)
        rw [Fin.val_zero, magnitude_zero]
        cases u
        · exact hk
        · exact neg_eq_zero.mp hk
      have hm : m = 0 := hrank hzero
      have hn : n = 0 := hrank (h.symm.trans hzero)
      rw [hm, hn]
      by_cases hsign : t = s
      · exact Or.inl (by rw [hsign])
      · exact Or.inr ⟨s, rfl, by rw [Bool.eq_not_of_ne hsign]⟩
    · rcases withSign_injective (magnitude_nonneg m) (magnitude_nonneg n) h hzero with ⟨hs, hm⟩
      left
      rw [hs, Fin.ext (magnitude_strictMono.injective hm)]
  case infinite.infinite =>
    left
    cases s <;> cases t <;> simp [Quantity.ofDouble, Quantity.same] at h ⊢
  case finite.infinite => cases t <;> simp [Quantity.ofDouble, Quantity.same] at h
  case infinite.finite => cases s <;> simp [Quantity.ofDouble, Quantity.same] at h
  all_goals simp [Quantity.ofDouble, Quantity.same] at h

/-- The zeros are integral. -/
theorem toInt?_zero (negative : Bool) : (finite negative 0).toInt? = some 0 := by
  have hrat : (finite negative 0).toRat? = some 0 := by
    rw [toRat?, Fin.val_zero, magnitude_zero]
    cases negative <;> rfl
  rw [toInt?, hrat]
  rfl

/-- A double with the value of an integer is integral. -/
theorem toInt?_of_same {n : Int} {d : Double}
    (h : (Quantity.rational n).same (Quantity.ofDouble d) = true) : d.toInt? = some n := by
  rcases d with ⟨s, m⟩ | s | _
  · simp only [Quantity.ofDouble, Quantity.same, beq_iff_eq] at h
    simp [toInt?, toRat?, ← h]
  · cases s <;> simp [Quantity.ofDouble, Quantity.same] at h
  · simp [Quantity.ofDouble, Quantity.same] at h

end Double

theorem Quantity.same_comm (x y : Quantity) : x.same y = y.same x := by
  cases x <;> cases y <;> simp [Quantity.same, BEq.comm]

/-- Equal values are the same, or an integer and a float without a fraction, or
    the two zeros. -/
theorem Value.cases_of_equals {a b : Value} (h : a.equals b = true) :
    a = b
      ∨ (∃ n d, d.toInt? = some n ∧ (a = int n ∧ b = float d ∨ a = float d ∧ b = int n))
      ∨ ∃ negative, a = float (.finite negative 0) ∧ b = float (.finite (!negative) 0) := by
  rw [equals] at h
  rcases ha : a.quantity? with _ | x <;> rcases hb : b.quantity? with _ | y <;>
    simp only [ha, hb] at h
  · exact Or.inl (beq_iff_eq.mp h)
  · exact absurd h (by simp)
  · exact absurd h (by simp)
  · -- Both are numbers.
    cases a <;> simp only [quantity?, Option.some.injEq, reduceCtorEq] at ha <;>
      cases b <;> simp only [quantity?, Option.some.injEq, reduceCtorEq] at hb <;>
      subst ha <;> subst hb
    case int.int n m =>
      simp only [Quantity.same, beq_iff_eq, Int.cast_inj] at h
      exact Or.inl (by rw [h])
    case int.float n d =>
      exact Or.inr (Or.inl ⟨n, d, Double.toInt?_of_same h, Or.inl ⟨rfl, rfl⟩⟩)
    case float.int d n =>
      rw [Quantity.same_comm] at h
      exact Or.inr (Or.inl ⟨n, d, Double.toInt?_of_same h, Or.inr ⟨rfl, rfl⟩⟩)
    case float.float d e =>
      rcases Double.eq_or_zeros_of_same h with rfl | ⟨negative, rfl, rfl⟩
      · exact Or.inl rfl
      · exact Or.inr (Or.inr ⟨negative, rfl, rfl⟩)

namespace Key

theorem encodeIndexValue_int_float {n : Int} {d : Double} (h : d.toInt? = some n) :
    encodeIndexValue (.int n) = encodeIndexValue (.float d) := by
  simp only [encodeIndexValue, Double.withinDigitLimit_of_toInt? h, if_true, h]

/-- Equal values have the same bytes. -/
theorem encodeIndexValue_of_equals {a b : Value} (h : a.equals b = true) :
    encodeIndexValue a = encodeIndexValue b := by
  rcases Value.cases_of_equals h with rfl | ⟨n, d, hd, ⟨rfl, rfl⟩ | ⟨rfl, rfl⟩⟩ | ⟨negative, rfl, rfl⟩
  · rfl
  · exact encodeIndexValue_int_float hd
  · exact (encodeIndexValue_int_float hd).symm
  · -- Both zeros are written as the integer.
    rw [← encodeIndexValue_int_float (Double.toInt?_zero negative),
      ← encodeIndexValue_int_float (Double.toInt?_zero (!negative))]

/-- A value has bytes unless it is null or beyond the digit limit. -/
theorem encodeIndexValue_error {v : Value} {fault : Fault}
    (h : encodeIndexValue v = .error fault) : v.isNull = true ∨ fault = .digitLimit := by
  cases v with
  | null => exact Or.inl rfl
  | bool b => simp [encodeIndexValue] at h
  | int n =>
    simp only [encodeIndexValue] at h
    split at h
    · exact absurd h (by simp)
    · exact Or.inr (Except.error.inj h).symm
  | float d =>
    simp only [encodeIndexValue] at h
    split at h <;> exact absurd h (by simp)
  | bytes b => simp [encodeIndexValue] at h
  | text s => simp [encodeIndexValue] at h
  | array items =>
    simp only [encodeIndexValue] at h
    split at h
    · exact absurd h (by simp)
    · exact Or.inr (Except.error.inj h).symm
  | object members =>
    simp only [encodeIndexValue] at h
    split at h
    · exact absurd h (by simp)
    · exact Or.inr (Except.error.inj h).symm

end Key

end TableStore
