import Mathlib.Tactic.SplitIfs
import TableStore.Json.Printer
import TableStore.Json.Reader
import TableStore.Proofs.Text.Utf8

/-!
# Strings in JSON Text

A string is written in ASCII and read back character by character. A character
of the basic plane that has no form of its own is one unit, and a character
beyond it is a pair of units: the first carries the upper ten bits and the
second the lower ten. A character is never a surrogate, so a unit that stands
alone is never mistaken for half of a pair, whatever follows it.

## Theorems

* `readUnit?_hexDigits`: Four digits are read as the number they were.
* `readPaired?_writeUnit`: A pair of units is read as its character.
* `readStringWithin_writeChar`: A character is read back.
* `readJsonString_write`: A string is read back.
-/

namespace TableStore

open Text

theorem hexValue?_digitChar {n : Nat} (h : n < 16) : hexValue? (Nat.digitChar n) = some n := by
  have hall : ∀ m : Fin 16, hexValue? (Nat.digitChar m) = some m.val := by decide
  exact hall ⟨n, h⟩

/-- Four digits are read as the number they were. -/
theorem readUnit?_hexDigits {n : Nat} (h : n < 0x10000) (rest : List Char) :
    readUnit? (hexDigits 4 n ++ rest) = some (n, rest) := by
  have hmod : ∀ m : Nat, m % 16 < 16 := fun m => Nat.mod_lt m (by decide)
  simp only [hexDigits, List.nil_append, List.cons_append, readUnit?, hexValue?_digitChar (hmod _)]
  rw [Option.some.injEq, Prod.mk.injEq]
  exact ⟨by omega, rfl⟩

theorem char_eq_of_toNat {c d : Char} (h : c.toNat = d.toNat) : c = d :=
  Char.ext (UInt32.toNat_inj.mp h)

theorem readEscape?_unit {n : Nat} (h : n < 0x10000) (rest : List Char) :
    readEscape? ('u' :: (hexDigits 4 n ++ rest)) = readPaired? n rest := by
  rw [readEscape?, readUnit?_hexDigits h]

theorem readPaired?_alone {n : Nat} (hhigh : isHighSurrogate n = false)
    (hlow : isLowSurrogate n = false) (rest : List Char) :
    readPaired? n rest = some (Char.ofNat n, rest) := by
  unfold readPaired?
  simp only [hhigh, hlow, Bool.or_self, Bool.false_eq_true, if_false]
  split <;> rfl

/-- A pair of units is read as its character. -/
theorem readPaired?_writeUnit {high low : Nat} (hhigh : isHighSurrogate high = true)
    (hlow : isLowSurrogate low = true) (rest : List Char) :
    readPaired? high (writeUnit low ++ rest)
      = some (Char.ofNat (0x10000 + (high - 0xD800) * 0x400 + (low - 0xDC00)), rest) := by
  have hbound : low < 0x10000 := by
    simp only [isLowSurrogate, Bool.and_eq_true, decide_eq_true_eq] at hlow
    omega
  simp only [readPaired?, writeUnit, List.cons_append, hhigh, if_true, readUnit?_hexDigits hbound,
    hlow]

theorem readStringWithin_escape {s rest : List Char} {c : Char} (h : readEscape? s = some (c, rest))
    (steps : Nat) : readStringWithin (steps + 1) ('\\' :: s)
      = (readStringWithin steps rest).map fun (t, after) => (c :: t, after) := by
  rw [readStringWithin, if_neg (by decide), if_pos (by decide), h]

/-- A character is read back. -/
theorem readStringWithin_writeChar (c : Char) (steps : Nat) (rest : List Char) :
    readStringWithin (steps + 1) (writeChar c ++ rest)
      = (readStringWithin steps rest).map fun (t, after) => (c :: t, after) := by
  unfold writeChar
  dsimp only
  split_ifs with hquote hslash hline hreturn htab hfeed hback hprinted hunit
  · rw [beq_iff_eq.mp hquote]
    exact readStringWithin_escape rfl steps
  · rw [beq_iff_eq.mp hslash]
    exact readStringWithin_escape rfl steps
  · rw [char_eq_of_toNat (d := '\n') (beq_iff_eq.mp hline)]
    exact readStringWithin_escape rfl steps
  · rw [char_eq_of_toNat (d := '\r') (beq_iff_eq.mp hreturn)]
    exact readStringWithin_escape rfl steps
  · rw [char_eq_of_toNat (d := '\t') (beq_iff_eq.mp htab)]
    exact readStringWithin_escape rfl steps
  · rw [char_eq_of_toNat (d := Char.ofNat 12) (beq_iff_eq.mp hfeed)]
    exact readStringWithin_escape rfl steps
  · rw [char_eq_of_toNat (d := Char.ofNat 8) (beq_iff_eq.mp hback)]
    exact readStringWithin_escape rfl steps
  · rw [Bool.and_eq_true, decide_eq_true_eq, decide_eq_true_eq] at hprinted
    rw [List.singleton_append, readStringWithin, if_neg hquote, if_neg hslash,
      if_neg (Nat.not_lt.mpr hprinted.1)]
  · -- A unit that is no surrogate stands for its character.
    have hranges := toNat_valid c
    rw [writeUnit, List.cons_append, List.cons_append]
    refine readStringWithin_escape ?_ steps
    rw [readEscape?_unit hunit, readPaired?_alone, Char.ofNat_toNat]
    · rw [isHighSurrogate, Bool.and_eq_false_iff, decide_eq_false_iff_not, decide_eq_false_iff_not]
      omega
    · rw [isLowSurrogate, Bool.and_eq_false_iff, decide_eq_false_iff_not, decide_eq_false_iff_not]
      omega
  · -- A pair carries the number above the basic plane in two halves.
    have hranges := toNat_valid c
    rw [List.append_assoc, writeUnit, List.cons_append, List.cons_append]
    refine readStringWithin_escape ?_ steps
    rw [readEscape?_unit (by omega), readPaired?_writeUnit, Option.some.injEq, Prod.mk.injEq]
    · refine ⟨char_eq_of_toNat ?_, rfl⟩
      rw [show 0x10000 + (0xD800 + (c.toNat - 0x10000) / 0x400 - 0xD800) * 0x400
        + (0xDC00 + (c.toNat - 0x10000) % 0x400 - 0xDC00) = c.toNat by omega, Char.ofNat_toNat]
    · rw [isHighSurrogate, Bool.and_eq_true, decide_eq_true_eq, decide_eq_true_eq]
      omega
    · rw [isLowSurrogate, Bool.and_eq_true, decide_eq_true_eq, decide_eq_true_eq]
      omega

theorem readStringWithin_write (cs rest : List Char) {steps : Nat} (h : cs.length < steps) :
    readStringWithin steps (cs.flatMap writeChar ++ '"' :: rest) = some (cs, rest) := by
  induction cs generalizing steps with
  | nil =>
    obtain ⟨n, rfl⟩ : ∃ n, steps = n + 1 := ⟨steps - 1, by rw [List.length_nil] at h; omega⟩
    rfl
  | cons c cs ih =>
    obtain ⟨n, rfl⟩ : ∃ n, steps = n + 1 := ⟨steps - 1, by rw [List.length_cons] at h; omega⟩
    rw [List.length_cons] at h
    rw [List.flatMap_cons, List.append_assoc, readStringWithin_writeChar, ih (by omega)]
    rfl

theorem writeChar_ne_nil (c : Char) : writeChar c ≠ [] := by
  unfold writeChar writeUnit
  dsimp only
  split_ifs <;> simp

/-- A text of which each character has a form is no longer than the forms. -/
theorem length_le_flatMap {α β : Type} {f : α → List β} (hf : ∀ a, f a ≠ []) (s : List α) :
    s.length ≤ (s.flatMap f).length := by
  induction s with
  | nil => exact Nat.le_refl _
  | cons a s ih =>
    have hpos := List.length_pos_iff.mpr (hf a)
    rw [List.flatMap_cons, List.length_append, List.length_cons]
    omega

/-- A string is read back. -/
theorem readJsonString_write (s : String) (rest : List Char) :
    readJsonString (s.toList.flatMap writeChar ++ '"' :: rest) = .ok (s, rest) := by
  have hle := length_le_flatMap writeChar_ne_nil s.toList
  rw [readJsonString, readStringWithin_write _ _ (by
    rw [List.length_append, List.length_cons]
    omega)]
  simp only [String.ofList_toList]

end TableStore
