import TableStore.Proofs.Key.Slot
import TableStore.Proofs.Text.Digits
import TableStore.RowId

/-!
# The Order of Counted Ids

The keys of rows with counted ids are in the order of their numbers. Among ids of one
length that is what the padding is for: with as many digits the larger number is the
larger text. It goes on when a number no longer fits the padding, because a key holds
the length of an id in front of it, with the most significant byte first, so that a
longer id comes after every shorter one.

None of this holds of numbers below zero, which are the larger the more digits they have.

## Theorems

* `encodeComponent_lt_of_length`, `encodeComponent_lt_of_lt`: Shorter components come first, and
  those of one length are in the order of their bytes.
* `encodeChars_lt`: The order of digits is that of the numbers they spell.
* `Slot.counted_lt`: The order of counted ids is that of their numbers.
-/

namespace TableStore

namespace Text

theorem numberOfDigits_cons (d : Nat) (ds : List Nat) :
    numberOfDigits (d :: ds) = d * 10 ^ ds.length + numberOfDigits ds := by
  rw [← List.singleton_append, numberOfDigits_append, numberOfDigits, List.foldl_cons, List.foldl_nil]
  simp

/-- Digits spell a number that has no more of them. -/
theorem numberOfDigits_lt {s : List Char} (hs : ∀ c ∈ s, c.isDigit) :
    numberOfDigits (digitValues s) < 10 ^ s.length := by
  induction s with
  | nil => decide
  | cons c s ih =>
    have hc := isDigit_bounds (hs c List.mem_cons_self)
    have hrest := ih fun d hd => hs d (List.mem_cons_of_mem c hd)
    have hle : (c.toNat - 48) * 10 ^ s.length ≤ 9 * 10 ^ s.length :=
      Nat.mul_le_mul_right _ (by omega)
    rw [digitValues, List.map_cons, numberOfDigits_cons, List.length_map, List.length_cons, Nat.pow_succ]
    change (c.toNat - 48) * 10 ^ s.length + numberOfDigits (digitValues s) < _
    omega

theorem encodeChars_cons_digit {c : Char} (hc : c.isDigit) (s : List Char) :
    encodeChars (c :: s) = UInt8.ofNat c.toNat :: encodeChars s := by
  have hbounds := isDigit_bounds hc
  rw [encodeChars, List.flatMap_cons, encodeChar, if_pos (by omega)]
  rfl

/-- The order of digits is that of the numbers they spell, if there are as many of them. -/
theorem encodeChars_lt {s t : List Char} (hs : ∀ c ∈ s, c.isDigit) (ht : ∀ c ∈ t, c.isDigit)
    (hlength : s.length = t.length)
    (hlt : numberOfDigits (digitValues s) < numberOfDigits (digitValues t)) :
    encodeChars s < encodeChars t := by
  induction s generalizing t with
  | nil =>
    rw [List.length_nil, eq_comm, List.length_eq_zero_iff] at hlength
    rw [hlength] at hlt
    exact absurd hlt (Nat.lt_irrefl _)
  | cons c s ih =>
    rcases t with _ | ⟨d, t⟩
    · exact absurd hlength (by simp)
    have hc := isDigit_bounds (hs c List.mem_cons_self)
    have hd := isDigit_bounds (ht d List.mem_cons_self)
    have hs' : ∀ c ∈ s, c.isDigit := fun e he => hs e (List.mem_cons_of_mem c he)
    have ht' : ∀ c ∈ t, c.isDigit := fun e he => ht e (List.mem_cons_of_mem d he)
    have hlength' : s.length = t.length := Nat.succ.inj hlength
    have hvalue : (c.toNat - 48) * 10 ^ s.length + numberOfDigits (digitValues s)
        < (d.toNat - 48) * 10 ^ s.length + numberOfDigits (digitValues t) := by
      have hboth := hlt
      rw [digitValues, digitValues, List.map_cons, List.map_cons, numberOfDigits_cons,
        numberOfDigits_cons, List.length_map, List.length_map, ← hlength'] at hboth
      exact hboth
    rw [encodeChars_cons_digit (hs c List.mem_cons_self), encodeChars_cons_digit (ht d List.mem_cons_self),
      List.cons_lt_cons_iff]
    rcases Nat.lt_trichotomy c.toNat d.toNat with hlow | heq | hhigh
    · left
      rw [UInt8.lt_iff_toNat_lt, UInt8.toNat_ofNat', UInt8.toNat_ofNat']
      omega
    · rw [heq] at hvalue ⊢
      exact Or.inr ⟨rfl, ih hs' ht' hlength' (by omega)⟩
    · -- The first digit decides, since the others spell less than one of it.
      have hrest := numberOfDigits_lt ht'
      rw [← hlength'] at hrest
      have hle : (d.toNat - 48 + 1) * 10 ^ s.length ≤ (c.toNat - 48) * 10 ^ s.length :=
        Nat.mul_le_mul_right _ (by omega)
      rw [Nat.add_mul, Nat.one_mul] at hle
      omega

end Text

namespace Key

/-- The order of four bytes is that of the lengths that they stand for. -/
theorem lt_of_decodeLength_lt {a b c d a' b' c' d' : UInt8}
    (h : decodeLength a b c d < decodeLength a' b' c' d') (s t : Bytes) :
    a :: b :: c :: d :: s < a' :: b' :: c' :: d' :: t := by
  have hb := UInt8.toNat_lt b
  have hc := UInt8.toNat_lt c
  have hd := UInt8.toNat_lt d
  have hb' := UInt8.toNat_lt b'
  have hc' := UInt8.toNat_lt c'
  have hd' := UInt8.toNat_lt d'
  rw [decodeLength, decodeLength] at h
  simp only [List.cons_lt_cons_iff, UInt8.lt_iff_toNat_lt, ← UInt8.toNat_inj]
  omega

/-- Shorter components come first. -/
theorem encodeComponent_lt_of_length {a b : Bytes} (hb : fits b = true) (h : a.length < b.length) :
    encodeComponent a < encodeComponent b := by
  rw [fits_iff] at hb
  refine lt_of_decodeLength_lt ?_ a b
  rw [decodeLength_encodeLength (h.trans hb), decodeLength_encodeLength hb]
  exact h

/-- Components of one length are in the order of their bytes. -/
theorem encodeComponent_lt_of_lt {a b : Bytes} (hlength : a.length = b.length) (h : a < b) :
    encodeComponent a < encodeComponent b := by
  rw [encodeComponent, encodeComponent, hlength]
  exact Bytes.append_lt_append_iff.mpr h

end Key

namespace IdSource

/-- The characters of the id of a number that is not below zero. -/
theorem toList_paddedText {width n : Int} (hn : 0 ≤ n) : (paddedText width n).toList
    = List.replicate (width.toNat - (Nat.toDigits 10 n.toNat).length) '0' ++ Nat.toDigits 10 n.toNat := by
  have habs : n.natAbs = n.toNat := by omega
  rw [paddedText, String.toList_ofList]
  simp only [if_neg (not_lt.mpr hn), List.length_nil, Nat.zero_add, List.nil_append, habs]

theorem isDigit_paddedText {width n : Int} (hn : 0 ≤ n) : ∀ c ∈ (paddedText width n).toList, c.isDigit := by
  intro c hc
  rw [toList_paddedText hn] at hc
  rcases List.mem_append.mp hc with hzero | hdigit
  · rw [List.eq_of_mem_replicate hzero]
    decide
  · exact Text.isDigit_toDigits hdigit

theorem length_paddedText {width n : Int} (hn : 0 ≤ n) : (paddedText width n).toList.length
    = max width.toNat (Nat.toDigits 10 n.toNat).length := by
  rw [toList_paddedText hn, List.length_append, List.length_replicate]
  omega

theorem length_encode_paddedText_eq {width n : Int} (hn : 0 ≤ n) :
    (Text.encode (paddedText width n)).length = (paddedText width n).toList.length := by
  refine Text.length_encodeChars_ascii fun c hc => ?_
  have hbounds := Text.isDigit_bounds (isDigit_paddedText hn c hc)
  omega

theorem numberOfDigits_paddedText {width n : Int} (hn : 0 ≤ n) :
    Text.numberOfDigits (Text.digitValues (paddedText width n).toList) = n.toNat := by
  rw [toList_paddedText hn, Text.numberOfDigits_padded]

/-- The larger of two numbers has no fewer digits. -/
theorem length_toDigits_le {a b : Nat} (h : a ≤ b) :
    (Nat.toDigits 10 a).length ≤ (Nat.toDigits 10 b).length := by
  rw [Nat.length_toDigits_le_iff (by decide) Nat.length_toDigits_pos]
  exact h.trans_lt ((Nat.length_toDigits_le_iff (by decide) Nat.length_toDigits_pos).mp le_rfl)

/-- The order of counted ids in keys is that of their numbers, whether or not they fit the
    padding. -/
theorem encodeComponent_paddedText_lt {width a b : Int} (ha : 0 ≤ a) (hab : a < b)
    (hb : Key.fits (Text.encode (paddedText width b)) = true) :
    Key.encodeComponent (Text.encode (paddedText width a))
      < Key.encodeComponent (Text.encode (paddedText width b)) := by
  have hb0 : 0 ≤ b := by omega
  have hle := @length_toDigits_le a.toNat b.toNat (by omega)
  have hlengtha := @length_encode_paddedText_eq width a ha
  have hlengthb := @length_encode_paddedText_eq width b hb0
  rw [length_paddedText ha] at hlengtha
  rw [length_paddedText hb0] at hlengthb
  -- A longer number has a longer component, and numbers of one length are ordered by digits.
  rcases Nat.lt_or_ge (Text.encode (paddedText width a)).length
    (Text.encode (paddedText width b)).length with hshort | hlong
  · exact Key.encodeComponent_lt_of_length hb hshort
  · refine Key.encodeComponent_lt_of_lt (by omega) ?_
    refine Text.encodeChars_lt (isDigit_paddedText ha) (isDigit_paddedText hb0) ?_ ?_
    · rw [length_paddedText ha, length_paddedText hb0]
      omega
    · rw [numberOfDigits_paddedText ha, numberOfDigits_paddedText hb0]
      omega

end IdSource

/-- The place of the row with the id that stands for a number. -/
def Slot.counted (table : String) (width n : Int) : Slot :=
  .row table (Text.encode (IdSource.paddedText width n))

/-- The rows of counted ids are stored in the order of their numbers. -/
theorem Slot.counted_lt {layout : KeyLayout} {table : String} {width a b : Int} (ha : 0 ≤ a)
    (hab : a < b) (hb : (Slot.counted table width b).Fits) :
    (Slot.counted table width a).key layout < (Slot.counted table width b).key layout := by
  rw [counted, counted, ← Slot.rowKey_eq, ← Slot.rowKey_eq]
  refine Bytes.append_lt_append_iff.mpr (IdSource.encodeComponent_paddedText_lt ha hab ?_)
  exact hb _ (by simp [counted, components])

end TableStore
