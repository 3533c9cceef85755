import Mathlib.Tactic.Ring
import TableStore.Json.Reader

/-!
# Runs of Decimal Digits

What is written with decimal digits is read back as the number it was. The
writers produce ASCII digits only, so everything is stated for a run of these:
the values that the readers take from it, the number that the values spell,
and where the reading stops.

A run ends at the first character that is no digit. Whoever writes a number
inside a longer text therefore has to show that what follows does not start
with one, which is what `NoDigit` says.

## Main definitions

* `digitValues`: The values of the digits of a run.
* `NoDigit`: A text that does not go on with a digit.

## Theorems

* `takeAsciiDigits_append`: A run of digits is taken as far as it goes.
* `numberOfDigits_digitValues`: The values of a run spell its number.
* `numberOfDigits_append`: The number that one run spells before another.
* `numberOfDigits_toDigits`: The digits of a number spell it.
* `toList_toString`: The text of an integer.
* `toDigits_eq_cons`: The digits of a positive number start with a positive
  one.
-/

namespace TableStore

namespace Text

/-- The values of the digits of a run. -/
def digitValues (s : List Char) : List Nat :=
  s.map fun c => c.toNat - 48

/-- A text that does not go on with a digit. -/
def NoDigit (s : List Char) : Prop :=
  ∀ c rest, s = c :: rest → ¬(48 ≤ c.toNat ∧ c.toNat ≤ 57)

theorem noDigit_cons {c : Char} {s : List Char} (h : ¬(48 ≤ c.toNat ∧ c.toNat ≤ 57)) :
    NoDigit (c :: s) := by
  intro d rest hd
  rw [List.cons.injEq] at hd
  rw [← hd.1]
  exact h

theorem isDigit_bounds {c : Char} (h : c.isDigit) : 48 ≤ c.toNat ∧ c.toNat ≤ 57 := by
  simp only [Char.isDigit, Bool.and_eq_true, decide_eq_true_eq, ge_iff_le, UInt32.le_iff_toNat_le] at h
  exact h

theorem digitValues_append (s t : List Char) :
    digitValues (s ++ t) = digitValues s ++ digitValues t := by
  simp only [digitValues, List.map_append]

theorem length_digitValues (s : List Char) : (digitValues s).length = s.length := by
  simp only [digitValues, List.length_map]

theorem digitValues_eq_cons {s : List Char} (h : s ≠ []) : ∃ d ds, digitValues s = d :: ds := by
  rcases s with _ | ⟨c, s⟩
  · exact absurd rfl h
  · exact ⟨_, _, rfl⟩

/-- A run of digits is taken as far as it goes. -/
theorem takeAsciiDigits_append {s rest : List Char} (hs : ∀ c ∈ s, c.isDigit)
    (hr : NoDigit rest) : takeAsciiDigits (s ++ rest) = (digitValues s, rest) := by
  induction s with
  | nil =>
    -- What follows the run is no digit, so nothing more is taken.
    cases rest with
    | nil => rfl
    | cons c rest =>
      have hc := hr c rest rfl
      rw [List.nil_append, takeAsciiDigits, if_neg (by simpa using hc)]
      rfl
  | cons c s ih =>
    have hc := isDigit_bounds (hs c (by simp))
    have hrest := ih fun d hd => hs d (by simp [hd])
    rw [List.cons_append, takeAsciiDigits, if_pos (by simpa using hc), hrest]
    rfl

/-- The number that values spell, read from the left onto `n`. -/
theorem foldl_digitValues (s : List Char) (n : Nat) :
    (digitValues s).foldl (fun n d => 10 * n + d) n = Nat.ofDigitChars 10 s n := by
  induction s generalizing n with
  | nil => rfl
  | cons c s ih =>
    rw [digitValues, List.map_cons, List.foldl_cons, Nat.ofDigitChars_cons]
    exact ih _

/-- The values of a run spell its number. -/
theorem numberOfDigits_digitValues (s : List Char) :
    numberOfDigits (digitValues s) = Nat.ofDigitChars 10 s 0 :=
  foldl_digitValues s 0

/-- The digits of a number spell it. -/
theorem numberOfDigits_toDigits (n : Nat) :
    numberOfDigits (digitValues (Nat.toDigits 10 n)) = n := by
  rw [numberOfDigits_digitValues, Nat.ofDigitChars_ten_toDigits]

theorem toDigits_ne_nil (n : Nat) : Nat.toDigits 10 n ≠ [] :=
  List.length_pos_iff.mp Nat.length_toDigits_pos

/-- The text of an integer: a minus if it is negative, and its digits. -/
theorem toList_toString (n : Int) :
    (toString n).toList
      = if n < 0 then '-' :: Nat.toDigits 10 n.natAbs else Nat.toDigits 10 n.natAbs := by
  rw [Int.toString_eq_repr, Int.repr_eq_if]
  by_cases hneg : n < 0
  · rw [if_pos hneg, if_neg (by omega), String.toList_append, Nat.toList_repr,
      show (-n).toNat = n.natAbs by omega]
    rfl
  · rw [if_neg hneg, if_pos (by omega), Nat.toList_repr, show n.toNat = n.natAbs by omega]

theorem isDigit_toDigits {n : Nat} {c : Char} (h : c ∈ Nat.toDigits 10 n) : c.isDigit :=
  Nat.isDigit_of_mem_toDigits (by decide) (by decide) h

/-- The digits of a positive number start with a positive one. -/
theorem toDigits_eq_cons {n : Nat} (hn : 0 < n) :
    ∃ c s, Nat.toDigits 10 n = c :: s ∧ c ≠ '0' := by
  induction n using Nat.strongRecOn with
  | ind n ih =>
    -- The last digit is split off, and the first one stays what it is.
    by_cases hlt : n < 10
    · refine ⟨Nat.digitChar n, [], Nat.toDigits_of_lt_base hlt, ?_⟩
      rw [Ne, Nat.digitChar_eq_zero]
      omega
    · rcases ih (n / 10) (by omega) (by omega) with ⟨c, s, hs, hc⟩
      refine ⟨c, s ++ [Nat.digitChar (n % 10)], ?_, hc⟩
      rw [Nat.toDigits_of_base_le (by decide) (by omega), hs, List.cons_append]

theorem foldl_eq_add (digits : List Nat) (n : Nat) :
    digits.foldl (fun n d => 10 * n + d) n = n * 10 ^ digits.length + numberOfDigits digits := by
  induction digits generalizing n with
  | nil => simp [numberOfDigits]
  | cons d digits ih =>
    rw [List.foldl_cons, numberOfDigits, List.foldl_cons, ih (10 * n + d), ih (10 * 0 + d),
      List.length_cons]
    ring

/-- The number that one run spells before another. -/
theorem numberOfDigits_append (s t : List Nat) :
    numberOfDigits (s ++ t) = numberOfDigits s * 10 ^ t.length + numberOfDigits t := by
  rw [numberOfDigits, List.foldl_append, foldl_eq_add]
  rfl

theorem numberOfDigits_replicate_zero (n : Nat) :
    numberOfDigits (digitValues (List.replicate n '0')) = 0 := by
  induction n with
  | zero => rfl
  | succ n ih =>
    rw [List.replicate_succ', digitValues_append, numberOfDigits_append, ih, Nat.zero_mul]
    rfl

/-- Zeros before the digits of a number change nothing. -/
theorem numberOfDigits_padded (k n : Nat) :
    numberOfDigits (digitValues (List.replicate k '0' ++ Nat.toDigits 10 n)) = n := by
  rw [digitValues_append, numberOfDigits_append, numberOfDigits_replicate_zero, Nat.zero_mul,
    Nat.zero_add, numberOfDigits_toDigits]

end Text

end TableStore
