import TableStore.Json.Printer
import TableStore.Proofs.Double.Decimal

/-!
# Numbers in JSON Text

A number that is written is read back as the same number, a double with its
sign and to the last bit, an integer to the last digit. For a double the
layout must be undone first: wherever the decimal point stands, and whether
or not there is an exponent, the digits and the power of ten that the reader
finds have the value of those that were laid out.

The reader takes as much of a text as belongs to a number. A number inside a
longer text therefore ends only where the text does not go on with a digit, a
point or the letter of an exponent.

## Main definitions

* `NumberEnds`: A text that does not go on with a part of a number.
* `ReadsDigits`: A text that reads as digits with the point at a position.

## Theorems

* `readUnsigned_layOut`: The layout of digits is undone.
* `readUnsigned_magnitudeText`: The text of a magnitude reads back.
* `readJsonNumber_finite`: The text of a finite double reads back.
* `readJsonNumber_toString`: The text of an integer reads back, up to the digit
  limit.
-/

namespace TableStore

open Text

/-- A text that does not go on with a part of a number. -/
def NumberEnds (s : List Char) : Prop :=
  ∀ c rest, s = c :: rest → ¬(48 ≤ c.toNat ∧ c.toNat ≤ 57) ∧ c ≠ '.' ∧ c ≠ 'e' ∧ c ≠ 'E'

theorem NumberEnds.noDigit {s : List Char} (h : NumberEnds s) : NoDigit s := by
  intro c rest hs
  exact (h c rest hs).1

theorem takeWhole_append {whole rest : List Char} (hw : whole ≠ []) (hd : ∀ c ∈ whole, c.isDigit)
    (hzero : whole.head? ≠ some '0') (hr : NoDigit rest) :
    takeWhole (whole ++ rest) = (digitValues whole, rest) := by
  rcases whole with _ | ⟨c, whole⟩
  · exact absurd rfl hw
  · have hc : c ≠ '0' := by
      intro h
      exact hzero (by rw [h]; rfl)
    rw [← takeAsciiDigits_append hd hr, List.cons_append, takeWhole]
    intro s hs
    rw [List.cons.injEq] at hs
    exact hc hs.1

theorem takePlaces_point {places rest : List Char} (hp : places ≠ []) (hd : ∀ c ∈ places, c.isDigit)
    (hr : NoDigit rest) :
    takePlaces ('.' :: (places ++ rest)) = (some (digitValues places), rest) := by
  rcases places with _ | ⟨c, places⟩
  · exact absurd rfl hp
  · simp only [takePlaces, takeAsciiDigits_append hd hr, digitValues, List.map_cons]

theorem takePlaces_none {s : List Char} (h : ∀ rest, s ≠ '.' :: rest) :
    takePlaces s = (none, s) := by
  unfold takePlaces
  split
  · rename_i rest
    exact absurd rfl (h rest)
  · rfl

theorem takeExponent_none {s : List Char} (h : NumberEnds s) : takeExponent s = (none, s) := by
  rcases s with _ | ⟨c, s⟩
  · rfl
  · rcases h c s rfl with ⟨_, _, he, hE⟩
    simp [takeExponent, he, hE]

theorem takeExponent_exponentText (e : Int) {rest : List Char} (hr : NoDigit rest) :
    takeExponent ('e' :: (Double.exponentText e ++ rest)) = (some e, rest) := by
  set digits := Nat.toDigits 10 e.natAbs with hdigits
  -- The padded digits spell the same number.
  obtain ⟨padded, hpadded, hne, hdig, hnum⟩ :
      ∃ padded, padded = (if digits.length < 2 then '0' :: digits else digits) ∧ padded ≠ []
        ∧ (∀ c ∈ padded, c.isDigit) ∧ numberOfDigits (digitValues padded) = e.natAbs := by
    have hdig : ∀ c ∈ digits, c.isDigit := fun c hc => isDigit_toDigits hc
    have hnum : numberOfDigits (digitValues digits) = e.natAbs := numberOfDigits_toDigits _
    refine ⟨_, rfl, ?_, ?_, ?_⟩
    · split_ifs with h
      · exact List.cons_ne_nil _ _
      · intro h0
        rw [h0] at h
        exact h (by decide)
    · split_ifs
      · intro c hc
        rcases List.mem_cons.mp hc with rfl | hc
        · rfl
        · exact hdig c hc
      · exact hdig
    · split_ifs
      · rw [show '0' :: digits = ['0'] ++ digits from rfl, digitValues_append, numberOfDigits_append,
          hnum]
        simp [digitValues, numberOfDigits]
      · exact hnum
  have htext : Double.exponentText e = (if e < 0 then '-' else '+') :: padded := by
    rw [Double.exponentText, hpadded]
  have htake := takeAsciiDigits_append hdig hr
  rcases digitValues_eq_cons hne with ⟨d, ds, hcons⟩
  rw [hcons] at htake hnum
  rw [htext]
  by_cases he : e < 0
  · simp only [if_pos he, List.cons_append, takeExponent, takeSign, htake, hnum]
    simp only [beq_self_eq_true, Bool.true_or, if_true, Prod.mk.injEq, and_true, Option.some.injEq]
    omega
  · simp only [if_neg he, List.cons_append, takeExponent, takeSign, htake, hnum]
    simp only [beq_self_eq_true, Bool.true_or, if_true, Prod.mk.injEq, and_true, Option.some.injEq]
    simp only [Bool.false_eq_true, if_false]
    omega

/-- A number with a point and no exponent. -/
theorem readUnsigned_point (negative : Bool) (whole places rest : List Char)
    (hw : takeWhole (whole ++ '.' :: (places ++ rest)) = (digitValues whole, '.' :: (places ++ rest)))
    (hwhole : whole ≠ []) (hp : places ≠ []) (hd : ∀ c ∈ places, c.isDigit) (hr : NumberEnds rest) :
    readUnsigned negative (whole ++ '.' :: (places ++ rest))
      = .ok (.float (Double.ofDecimal negative (numberOfDigits (digitValues (whole ++ places)))
          (-(places.length : Int))), rest) := by
  rcases digitValues_eq_cons hwhole with ⟨d, ds, hcons⟩
  rw [readUnsigned, hw, hcons]
  simp only [takePlaces_point hp hd hr.noDigit, takeExponent_none hr, length_digitValues]
  rw [digitValues_append, hcons]

/-- A number with an exponent. -/
theorem readUnsigned_exponent (negative : Bool) {c : Char} {ds rest : List Char} (e : Int)
    (hc : c ≠ '0') (hd : ∀ d ∈ c :: ds, d.isDigit) (hr : NoDigit rest) :
    readUnsigned negative
        (c :: ((if ds.isEmpty then [] else '.' :: ds) ++ 'e' :: Double.exponentText e) ++ rest)
      = .ok (.float (Double.ofDecimal negative (numberOfDigits (digitValues (c :: ds)))
          (e - ds.length)), rest) := by
  have hletter : NoDigit ('e' :: (Double.exponentText e ++ rest)) := noDigit_cons (by decide)
  have hpoint : NoDigit ('.' :: (ds ++ 'e' :: (Double.exponentText e ++ rest))) :=
    noDigit_cons (by decide)
  have hhead : [c].head? ≠ some '0' := by
    rw [List.head?_cons, Ne, Option.some.injEq]
    exact hc
  have hsingle : ∀ d ∈ [c], d.isDigit := by
    intro d hmem
    exact hd d (by rw [List.mem_singleton.mp hmem]; exact List.mem_cons_self)
  have hvalues : digitValues [c] = [c.toNat - 48] := rfl
  rcases ds with _ | ⟨d, ds⟩
  · -- A single digit has no point after it.
    have hwhole := takeWhole_append (List.cons_ne_nil c []) hsingle hhead hletter
    have hplaces : takePlaces ('e' :: (Double.exponentText e ++ rest))
        = (none, 'e' :: (Double.exponentText e ++ rest)) :=
      takePlaces_none fun s h => absurd (List.cons.inj h).1 (by decide)
    rw [List.singleton_append] at hwhole
    simp only [List.isEmpty_nil, if_true, List.nil_append, List.cons_append, readUnsigned, hwhole,
      hvalues, hplaces, takeExponent_exponentText e hr, Option.getD_none, List.append_nil,
      List.length_nil]
  · have hwhole := takeWhole_append (List.cons_ne_nil c []) hsingle hhead hpoint
    have hplaces := takePlaces_point (List.cons_ne_nil d ds)
      (fun x hx => hd x (List.mem_cons_of_mem c hx)) hletter
    rw [List.singleton_append] at hwhole
    simp only [List.isEmpty_cons, Bool.false_eq_true, if_false, List.cons_append, List.append_assoc,
      readUnsigned, hvalues] at hwhole hplaces ⊢
    simp only [hwhole, hplaces, takeExponent_exponentText e hr, Option.getD_some,
      length_digitValues]
    rfl

theorem decimalValue_shift (n k : Nat) (e : Int) :
    Double.decimalValue (n * 10 ^ k) (e - k) = Double.decimalValue n e := by
  simp only [Double.decimalValue]
  rw [zpow_sub₀ (by norm_num), zpow_natCast]
  push_cast
  field_simp

theorem layOut_padded {ds : List Char} {point : Int} (hpos : 0 < point) (hle : point ≤ 16)
    (hlong : ds.length ≤ point.toNat) :
    Double.layOut ds point
      = ds ++ List.replicate (point.toNat - ds.length) '0' ++ '.' :: ['0'] := by
  have hplain : (-4 < point && point ≤ 16) = true := by
    rw [Bool.and_eq_true, decide_eq_true_eq, decide_eq_true_eq]
    omega
  simp only [Double.layOut, if_pos hplain, if_neg (not_le.mpr hpos), List.take_of_length_le hlong,
    List.drop_of_length_le hlong, List.isEmpty_nil, if_true]

theorem layOut_split {ds : List Char} {point : Int} (hpos : 0 < point) (hle : point ≤ 16)
    (hshort : point.toNat < ds.length) :
    Double.layOut ds point = ds.take point.toNat ++ '.' :: ds.drop point.toNat := by
  have hplain : (-4 < point && point ≤ 16) = true := by
    rw [Bool.and_eq_true, decide_eq_true_eq, decide_eq_true_eq]
    omega
  have hdrop : (ds.drop point.toNat).isEmpty = false := by
    rw [List.isEmpty_eq_false_iff, Ne, List.drop_eq_nil_iff]
    omega
  simp only [Double.layOut, if_pos hplain, if_neg (not_le.mpr hpos), hdrop, Bool.false_eq_true,
    if_false, Nat.sub_eq_zero_of_le hshort.le, List.replicate_zero, List.append_nil]

section Layout

variable {c : Char} {ds rest : List Char} {point : Int}

/-- A text that reads as a number with the value of digits, the point at a
    position among them, before what follows it. -/
def ReadsDigits (negative : Bool) (s rest digits : List Char) (point : Int) : Prop :=
  ∃ n e, readUnsigned negative (s ++ rest) = .ok (.float (Double.ofDecimal negative n e), rest)
    ∧ Double.decimalValue n e
      = Double.decimalValue (numberOfDigits (digitValues digits)) (point - digits.length)

theorem isDigit_replicate_zero {n : Nat} : ∀ d ∈ List.replicate n '0', d.isDigit := by
  intro d hmem
  rw [(List.mem_replicate.mp hmem).2]
  rfl

/-- Only zeros stand before the digits. -/
theorem readsDigits_zerosBefore (negative : Bool) (hd : ∀ d ∈ c :: ds, d.isDigit)
    (hr : NumberEnds rest) (hnear : -4 < point ∧ point ≤ 16) (hsmall : point ≤ 0) :
    ReadsDigits negative (Double.layOut (c :: ds) point) rest (c :: ds) point := by
  have hread := readUnsigned_point negative
    ['0'] (List.replicate (-point).toNat '0' ++ (c :: ds)) rest rfl (by simp) (by simp)
    (fun d hmem => (List.mem_append.mp hmem).elim (isDigit_replicate_zero d) (hd d)) hr
  rw [Double.layOut, if_pos (by simpa using hnear), if_pos hsmall]
  refine ⟨_, _, hread, ?_⟩
  rw [digitValues_append, digitValues_append, numberOfDigits_append, numberOfDigits_append,
    numberOfDigits_replicate_zero, show numberOfDigits (digitValues ['0']) = 0 from rfl,
    Nat.zero_mul, Nat.zero_mul, Nat.zero_add, Nat.zero_add, @List.length_append _ _ (c :: ds),
    List.length_replicate]
  congr 1
  push_cast
  omega

/-- The point comes between two of the digits. -/
theorem readsDigits_split (negative : Bool) (hc : c ≠ '0') (hd : ∀ d ∈ c :: ds, d.isDigit)
    (hr : NumberEnds rest) (hpos : 0 < point) (hle : point ≤ 16)
    (hshort : point.toNat < (c :: ds).length) :
    ReadsDigits negative (Double.layOut (c :: ds) point) rest (c :: ds) point := by
  obtain ⟨n, hn⟩ : ∃ n, point.toNat = n + 1 := ⟨point.toNat - 1, by omega⟩
  have hdrop : (c :: ds).drop point.toNat ≠ [] := by
    rw [Ne, List.drop_eq_nil_iff]
    omega
  have htake : (c :: ds).take point.toNat ≠ [] := by
    rw [hn, List.take_succ_cons]
    exact List.cons_ne_nil _ _
  have hread := readUnsigned_point negative ((c :: ds).take point.toNat)
    ((c :: ds).drop point.toNat) rest
    (takeWhole_append htake (fun d hmem => hd d (List.mem_of_mem_take hmem))
      (by rw [hn, List.take_succ_cons, List.head?_cons]; simpa using hc)
      (noDigit_cons (by decide)))
    htake hdrop (fun d hmem => hd d (List.mem_of_mem_drop hmem)) hr
  rw [layOut_split hpos hle hshort]
  refine ⟨_, _, by rw [List.append_assoc, List.cons_append]; exact hread, ?_⟩
  rw [List.take_append_drop, List.length_drop]
  congr 1
  omega

/-- The point comes after the digits and some zeros. -/
theorem readsDigits_zerosAfter (negative : Bool) (hc : c ≠ '0') (hd : ∀ d ∈ c :: ds, d.isDigit)
    (hr : NumberEnds rest) (hpos : 0 < point) (hle : point ≤ 16)
    (hlong : (c :: ds).length ≤ point.toNat) :
    ReadsDigits negative (Double.layOut (c :: ds) point) rest (c :: ds) point := by
  set k := point.toNat - (c :: ds).length with hk
  have hread := readUnsigned_point negative ((c :: ds) ++ List.replicate k '0') ['0'] rest
    (takeWhole_append (by simp)
      (fun d hmem => (List.mem_append.mp hmem).elim (hd d) (isDigit_replicate_zero d))
      (by rw [List.cons_append, List.head?_cons]; simpa using hc) (noDigit_cons (by decide)))
    (by simp) (by simp) (by simp) hr
  have hvalue := decimalValue_shift (numberOfDigits (digitValues (c :: ds))) (k + 1) k
  rw [layOut_padded hpos hle hlong, ← hk]
  refine ⟨_, _, by rw [List.append_assoc _ _ rest, List.cons_append]; exact hread, ?_⟩
  rw [digitValues_append, digitValues_append, numberOfDigits_append, numberOfDigits_append,
    numberOfDigits_replicate_zero, length_digitValues, length_digitValues,
    List.length_replicate, show numberOfDigits (digitValues ['0']) = 0 from rfl,
    Nat.add_zero, Nat.add_zero, Nat.mul_assoc, List.length_singleton, ← Nat.pow_add,
    show point - ((c :: ds).length : Int) = k by omega, ← hvalue]
  congr 1
  push_cast
  omega

/-- The layout of digits is undone. -/
theorem readUnsigned_layOut (negative : Bool) (point : Int)
    (hc : c ≠ '0') (hd : ∀ d ∈ c :: ds, d.isDigit) (hr : NumberEnds rest) :
    ReadsDigits negative (Double.layOut (c :: ds) point) rest (c :: ds) point := by
  by_cases hplain : (-4 < point && point ≤ 16) = true
  · have hnear : -4 < point ∧ point ≤ 16 := by simpa using hplain
    rcases le_or_gt point 0 with hsmall | hpos
    · exact readsDigits_zerosBefore negative hd hr hnear hsmall
    · rcases Nat.lt_or_ge point.toNat (c :: ds).length with hshort | hlong
      · exact readsDigits_split negative hc hd hr hpos hnear.2 hshort
      · exact readsDigits_zerosAfter negative hc hd hr hpos hnear.2 hlong
  · -- One digit stands before the point, and the exponent makes up for it.
    rw [Double.layOut, if_neg hplain]
    refine ⟨_, _, readUnsigned_exponent negative (point - 1) hc hd hr.noDigit, ?_⟩
    congr 1
    rw [List.length_cons]
    push_cast
    ring

end Layout

/-- A number without a sign starts with a digit. -/
theorem readUnsigned_head {negative : Bool} {s rest : List Char} {j : Json}
    (h : readUnsigned negative s = .ok (j, rest)) :
    ∃ c t, s = c :: t ∧ 48 ≤ c.toNat ∧ c.toNat ≤ 57 := by
  rcases s with _ | ⟨c, t⟩
  · exact absurd h (by simp [readUnsigned, takeWhole, takeAsciiDigits])
  · refine ⟨c, t, rfl, ?_⟩
    by_contra hc
    -- Without a digit there is nothing to read, and a number needs something.
    have hzero : c ≠ '0' := by
      rintro rfl
      exact hc (by decide)
    have hwhole : takeWhole (c :: t) = ([], c :: t) := by
      rw [takeWhole]
      · rw [takeAsciiDigits, if_neg (by simpa using hc)]
      · intro s hs
        exact hzero (List.cons.inj hs).1
    rw [readUnsigned, hwhole] at h
    exact absurd h (by simp)

theorem readJsonNumber_unsigned {s rest : List Char} {j : Json}
    (h : readUnsigned false s = .ok (j, rest)) : readJsonNumber s = .ok (j, rest) := by
  rcases readUnsigned_head h with ⟨c, t, rfl, hc⟩
  rw [readJsonNumber]
  · exact h
  · intro s hs
    rw [(List.cons.inj hs).1] at hc
    exact absurd hc (by decide)

/-- A list of digits is its trimmed form and some zeros. -/
theorem trimZeros_append (s : List Char) :
    ∃ k, s = Double.trimZeros s ++ List.replicate k '0' := by
  refine ⟨(s.reverse.takeWhile (· == '0')).length, ?_⟩
  have hzeros : s.reverse.takeWhile (· == '0')
      = List.replicate (s.reverse.takeWhile (· == '0')).length '0' := by
    rw [List.eq_replicate_iff]
    refine ⟨rfl, fun c hc => ?_⟩
    exact beq_iff_eq.mp (List.all_eq_true.mp List.all_takeWhile c hc)
  have hsplit := congrArg List.reverse
    (List.takeWhile_append_dropWhile (p := (· == '0')) (l := s.reverse))
  rw [List.reverse_append, List.reverse_reverse] at hsplit
  rw [Double.trimZeros, ← List.reverse_replicate, ← hzeros]
  exact hsplit.symm

/-- The digits of a positive number are its significant ones, which start with a positive
    one, and some zeros. -/
theorem trimZeros_toDigits {n : Nat} (hn : 0 < n) :
    ∃ c ds k, Double.trimZeros (Nat.toDigits 10 n) = c :: ds ∧ c ≠ '0'
      ∧ (∀ d ∈ c :: ds, d.isDigit) ∧ Nat.toDigits 10 n = c :: ds ++ List.replicate k '0' := by
  rcases toDigits_eq_cons hn with ⟨c, digits, hall, hc⟩
  rcases trimZeros_append (Nat.toDigits 10 n) with ⟨k, hk⟩
  -- Only zeros are trimmed, and the first digit is not one.
  obtain ⟨ds, htrim⟩ : ∃ ds, Double.trimZeros (Nat.toDigits 10 n) = c :: ds := by
    rcases htrim : Double.trimZeros (Nat.toDigits 10 n) with _ | ⟨d, ds⟩
    · rw [htrim, List.nil_append, hall] at hk
      have hmem : c ∈ List.replicate k '0' := by
        rw [← hk]
        exact List.mem_cons_self
      exact absurd (List.mem_replicate.mp hmem).2 hc
    · rw [htrim, hall, List.cons_append, List.cons.injEq] at hk
      exact ⟨ds, by rw [hk.1]⟩
  rw [htrim] at hk
  refine ⟨c, ds, k, htrim, hc, fun d hmem => ?_, hk⟩
  apply isDigit_toDigits (n := n)
  rw [hk]
  exact List.mem_append_left _ hmem

/-- The text of the magnitude of a double reads back. -/
theorem readUnsigned_magnitudeText (negative : Bool) (rank : Fin 0x7FF0000000000000)
    {rest : List Char} (hr : NumberEnds rest) :
    readUnsigned negative (Double.magnitudeText rank ++ rest)
      = .ok (.float (.finite negative rank), rest) := by
  rcases Nat.eq_zero_or_pos rank.val with hzero | hpos
  · have hread := readUnsigned_point negative ['0'] ['0'] rest
      rfl (by simp) (by simp) (by simp) hr
    rw [Double.magnitudeText, hzero, if_pos (beq_self_eq_true 0)]
    refine hread.trans ?_
    rw [show numberOfDigits (digitValues (['0'] ++ ['0'])) = 0 from rfl, Double.ofDecimal,
      if_pos (beq_self_eq_true 0), Double.ofRank, dif_pos (by decide)]
    rw [show rank = ⟨0, by decide⟩ from Fin.ext hzero]
  · set n := (Double.shortest rank).1 with hn
    set e := (Double.shortest rank).2 with he
    have hback : Double.Surrounds rank (Double.decimalValue n e) :=
      Double.surrounds_of_readsBack (Double.readsBack_shortest hpos)
    have hnpos : 0 < n := Double.digits_pos_of_surrounds hpos hback
    rcases trimZeros_toDigits hnpos with ⟨c, ds, k, htrim, hc, hd, hk⟩
    have hnum : n = numberOfDigits (digitValues (c :: ds)) * 10 ^ k := by
      have h := numberOfDigits_toDigits n
      rw [hk, digitValues_append, numberOfDigits_append, numberOfDigits_replicate_zero,
        length_digitValues, List.length_replicate, Nat.add_zero] at h
      exact h.symm
    have hlen : (Nat.toDigits 10 n).length = (c :: ds).length + k := by
      rw [hk, List.length_append, List.length_replicate]
    rcases readUnsigned_layOut negative ((Nat.toDigits 10 n).length + e) hc hd hr
      with ⟨m, f, hread, hvalue⟩
    -- The trimmed zeros are in the exponent, so the number is the same.
    have hsame : Double.decimalValue m f = Double.decimalValue n e := by
      rw [hvalue, hlen]
      conv_rhs => rw [hnum]
      rw [← decimalValue_shift _ k]
      congr 1
      push_cast
      ring
    rw [Double.magnitudeText, if_neg (by rw [beq_iff_eq]; omega)]
    simp only [← hn, ← he, htrim]
    rw [hread, Double.ofDecimal_eq hpos rank.isLt (by rw [hsame]; exact hback)]

/-- The text of a finite double reads back. -/
theorem readJsonNumber_finite (negative : Bool) (rank : Fin 0x7FF0000000000000)
    (infinity nanWord : String) {rest : List Char} (hr : NumberEnds rest) :
    readJsonNumber (((Double.finite negative rank).textWith infinity nanWord).toList ++ rest)
      = .ok (.float (.finite negative rank), rest) := by
  have hread := readUnsigned_magnitudeText negative rank hr
  rw [Double.textWith, String.toList_ofList]
  cases negative with
  | false => exact readJsonNumber_unsigned hread
  | true => exact hread

/-- The digits of an integer give its absolute value and the sign that was read,
    unless there are too many of them. -/
theorem integerOf_toDigits (negative : Bool) (n : Int) :
    integerOf negative (digitValues (Nat.toDigits 10 n.natAbs))
      = if withinDigitLimit n then .ok (if negative then -(n.natAbs : Int) else n.natAbs)
        else .error .digitLimit := by
  simp only [integerOf, length_digitValues, withinDigitLimit, numberOfDigits_toDigits,
    decide_eq_true_eq]

/-- The text of an integer reads back, unless there are too many digits. -/
theorem readJsonNumber_toString (n : Int) {rest : List Char} (hr : NumberEnds rest) :
    readJsonNumber ((toString n).toList ++ rest)
      = if withinDigitLimit n then .ok (.int n, rest) else .error .digitLimit := by
  have hdig : ∀ c ∈ Nat.toDigits 10 n.natAbs, c.isDigit := fun c hc => isDigit_toDigits hc
  have hplaces : takePlaces rest = (none, rest) :=
    takePlaces_none fun s hs => (hr '.' s hs).2.1 rfl
  have hunsigned : ∀ negative, readUnsigned negative (Nat.toDigits 10 n.natAbs ++ rest)
      = if withinDigitLimit n then
          .ok (.int (if negative then -(n.natAbs : Int) else n.natAbs), rest)
        else .error .digitLimit := by
    intro negative
    have hwhole : takeWhole (Nat.toDigits 10 n.natAbs ++ rest)
        = (digitValues (Nat.toDigits 10 n.natAbs), rest) := by
      rcases Nat.eq_zero_or_pos n.natAbs with hzero | hpos
      · rw [hzero]
        rfl
      · rcases toDigits_eq_cons hpos with ⟨c, ds, hall, hc⟩
        refine takeWhole_append (toDigits_ne_nil _) hdig ?_ hr.noDigit
        rw [hall, List.head?_cons, Ne, Option.some.injEq]
        exact hc
    have hint := integerOf_toDigits negative n
    rcases digitValues_eq_cons (toDigits_ne_nil n.natAbs) with ⟨d, ds, hcons⟩
    rw [hcons] at hwhole hint
    simp only [readUnsigned, hwhole, hplaces, takeExponent_none hr, hint]
    split <;> rfl
  rw [toList_toString]
  by_cases hneg : n < 0
  · rw [if_pos hneg, List.cons_append]
    simp only [readJsonNumber, hunsigned, if_true]
    rw [Int.ofNat_natAbs_of_nonpos hneg.le, neg_neg]
  · rw [if_neg hneg]
    -- A digit is not taken for the sign.
    obtain ⟨c, ds, hcons⟩ := List.exists_cons_of_ne_nil (toDigits_ne_nil n.natAbs)
    have hread : readJsonNumber (Nat.toDigits 10 n.natAbs ++ rest)
        = readUnsigned false (Nat.toDigits 10 n.natAbs ++ rest) := by
      have hc := hdig c (by rw [hcons]; exact List.mem_cons_self)
      rw [hcons, List.cons_append, readJsonNumber]
      intro s hs
      rw [(List.cons.inj hs).1] at hc
      exact absurd hc (by decide)
    rw [hread, hunsigned]
    simp only [Bool.false_eq_true, if_false]
    rw [Int.natAbs_of_nonneg (not_lt.mp hneg)]

theorem readJsonNumber_int {n : Int} (hn : withinDigitLimit n = true) {rest : List Char}
    (hr : NumberEnds rest) :
    readJsonNumber ((toString n).toList ++ rest) = .ok (.int n, rest) := by
  rw [readJsonNumber_toString n hr, if_pos hn]

end TableStore
