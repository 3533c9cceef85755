import TableStore.Proofs.Text.Utf8
import TableStore.Text.Base64

/-!
# Base 64 Round Trip

The base 64 text of a byte string is read back as the byte string. The reader
goes digit by digit and keeps the bits that a digit leaves over, so the proof
first says what each digit of a group of four does, then what a whole group
does, and the padded groups at the end are the two remaining cases. The text is
also plain ASCII, which the reader of stored rows asks for.

## Theorems

* `base64Value?_base64Digit`: A digit has the value that it stands for.
* `readBase64_group`: A group of four digits is read as its three bytes.
* `ofBase64?_toBase64`: Reading undoes writing.
* `toBase64_ascii`: The text is ASCII.
-/

namespace TableStore

namespace Text

/-- What is known about the digits. There are few enough to look at each. -/
theorem base64Digit_facts : ∀ n < 64, base64Value? (base64Digit n) = some n
    ∧ (base64Digit n == '=') = false ∧ (base64Digit n).toNat < 128 := by
  decide +kernel

/-- A digit has the value that it stands for. -/
theorem base64Value?_base64Digit {n : Nat} (h : n < 64) :
    base64Value? (base64Digit n) = some n :=
  (base64Digit_facts n h).1

theorem readBase64_first {n left paddings : Nat} (h : n < 64) (s : List Char) :
    readBase64 ⟨0, left, paddings⟩ (base64Digit n :: s) = readBase64 ⟨1, n, 0⟩ s := by
  simp only [readBase64, (base64Digit_facts n h).2.1, base64Value?_base64Digit h,
    Bool.false_eq_true, if_false]

theorem readBase64_second {n left paddings : Nat} (h : n < 64) (s : List Char) :
    readBase64 ⟨1, left, paddings⟩ (base64Digit n :: s)
      = (readBase64 ⟨2, n % 16, 0⟩ s).map (UInt8.ofNat (left * 4 + n / 16) :: ·) := by
  simp only [readBase64, (base64Digit_facts n h).2.1, base64Value?_base64Digit h,
    Bool.false_eq_true, if_false]

theorem readBase64_third {n left paddings : Nat} (h : n < 64) (s : List Char) :
    readBase64 ⟨2, left, paddings⟩ (base64Digit n :: s)
      = (readBase64 ⟨3, n % 4, 0⟩ s).map (UInt8.ofNat (left * 16 + n / 4) :: ·) := by
  simp only [readBase64, (base64Digit_facts n h).2.1, base64Value?_base64Digit h,
    Bool.false_eq_true, if_false]

theorem readBase64_fourth {n left paddings : Nat} (h : n < 64) (s : List Char) :
    readBase64 ⟨3, left, paddings⟩ (base64Digit n :: s)
      = (readBase64 ⟨0, 0, 0⟩ s).map (UInt8.ofNat (left * 64 + n) :: ·) := by
  simp only [readBase64, (base64Digit_facts n h).2.1, base64Value?_base64Digit h,
    Bool.false_eq_true, if_false]

/-- A group of four digits is read as its three bytes. -/
theorem readBase64_group (a b c : UInt8) (s : List Char) :
    readBase64 ⟨0, 0, 0⟩ (base64Digit (a.toNat / 4)
      :: base64Digit (a.toNat % 4 * 16 + b.toNat / 16)
      :: base64Digit (b.toNat % 16 * 4 + c.toNat / 64) :: base64Digit (c.toNat % 64) :: s)
      = (readBase64 ⟨0, 0, 0⟩ s).map fun rest => a :: b :: c :: rest := by
  have ha := a.toNat_lt
  have hb := b.toNat_lt
  have hc := c.toNat_lt
  rw [readBase64_first (by omega), readBase64_second (by omega), readBase64_third (by omega),
    readBase64_fourth (by omega), ofNat_eq_byte (b := a) (by omega),
    ofNat_eq_byte (b := b) (by omega), ofNat_eq_byte (b := c) (by omega)]
  simp only [Option.map_map]
  rfl

/-- Reading undoes writing. -/
theorem ofBase64?_toBase64 (s : Bytes) : ofBase64? (toBase64 s) = some s := by
  unfold ofBase64?
  induction s using toBase64.induct with
  | case1 => rfl
  | case2 a =>
    have ha := a.toNat_lt
    rw [toBase64, readBase64_first (by omega), readBase64_second (by omega),
      ofNat_eq_byte (b := a) (by omega)]
    rfl
  | case3 a b =>
    have ha := a.toNat_lt
    have hb := b.toNat_lt
    rw [toBase64, readBase64_first (by omega), readBase64_second (by omega),
      readBase64_third (by omega), ofNat_eq_byte (b := a) (by omega),
      ofNat_eq_byte (b := b) (by omega)]
    rfl
  | case4 a b c s ih => rw [toBase64, readBase64_group, ih, Option.map_some]

/-- The text is ASCII. -/
theorem toBase64_ascii (s : Bytes) : ((toBase64 s).all fun c => decide (c.toNat < 128)) = true := by
  have digit : ∀ {n : Nat}, n < 64 → (base64Digit n).toNat < 128 := fun h =>
    (base64Digit_facts _ h).2.2
  induction s using toBase64.induct with
  | case1 => rfl
  | case2 a =>
    have ha := a.toNat_lt
    simp [toBase64, digit (n := a.toNat / 4) (by omega), digit (n := a.toNat % 4 * 16) (by omega)]
  | case3 a b =>
    have ha := a.toNat_lt
    have hb := b.toNat_lt
    simp [toBase64, digit (n := a.toNat / 4) (by omega),
      digit (n := a.toNat % 4 * 16 + b.toNat / 16) (by omega),
      digit (n := b.toNat % 16 * 4) (by omega)]
  | case4 a b c s ih =>
    have ha := a.toNat_lt
    have hb := b.toNat_lt
    have hc := c.toNat_lt
    simp [toBase64, digit (n := a.toNat / 4) (by omega),
      digit (n := a.toNat % 4 * 16 + b.toNat / 16) (by omega),
      digit (n := b.toNat % 16 * 4 + c.toNat / 64) (by omega),
      digit (n := c.toNat % 64) (by omega)]
    simpa using ih

end Text

end TableStore
