import TableStore.Proofs.Json.RoundTrip
import TableStore.Proofs.Statement.PrintedValue

/-!
# Values Written Without Quotes

Null, the truth values and the numbers are written without quotes, and whoever reads them
has to find out from the look of the text what it is. Words come first, and a number is a
float if there is a decimal point in it.

JSON tells its numbers apart in another way: a number is an integer if it has neither
places nor an exponent. The two agree about a text with a point, so that a double which
JSON gives back is given back by the literal as well. They do not agree about a double
whose text has an exponent and no point. That is the text of a single digit and a power of
ten, as in `1e+16`. As a literal it is no float and no integer either, and so it denotes
itself.

## Main definitions

* `Value.plainText?`: The text of a value that is written without quotes.
* `Double.hasPoint`: Whether a double is written with a decimal point.

## Theorems

* `readFloat?_of_readUnsigned`: A JSON number with a point is a float literal.
* `point_mem_text`: Which doubles are written with a point.
* `Value.ofLiteral_plainText`: The text of a value denotes it, or a double without a point
  itself.
-/

namespace TableStore

/-- Whether a double is written with a decimal point. A finite one is, unless a single
    digit is written with an exponent. -/
def Double.hasPoint : Double → Bool
  | finite _ rank =>
    let (digits, exponent) := shortest rank
    let all := Nat.toDigits 10 digits
    let point := (all.length : Int) + exponent
    rank.val == 0 || (-4 < point && point ≤ 16) || (trimZeros all).length != 1
  | _ => false

/-- The text of a value that is written without quotes. -/
def Value.plainText? : Value → Option String
  | null => some "NULL"
  | bool b => some (if b then "TRUE" else "FALSE")
  | int n => if Text.withinDigitLimit n then some (toString n) else none
  | float d => if d.isFinite then some d.text else none
  | text _ | bytes _ | array _ | object _ => none

section Readers

variable {s rest : List Char} {values : List Nat}

/-- Where the reader of JSON stops before something other than a digit, the reader of
    literals does too, though it knows the digits of more scripts. -/
theorem takeDigits_of_takeAsciiDigits (h : takeAsciiDigits s = (values, rest))
    (hrest : takeDigits rest = ([], rest)) : takeDigits s = (values, rest) := by
  induction s generalizing values with
  | nil =>
    cases h
    rfl
  | cons c s ih =>
    rw [takeAsciiDigits] at h
    split at h
    · rename_i hc
      rw [Bool.and_eq_true, decide_eq_true_eq, decide_eq_true_eq] at hc
      have hvalue : Text.digitValue? c = some (c.toNat - 48) := by
        unfold Text.digitValue?
        dsimp only
        rw [if_pos (by omega), if_pos (by simpa using hc)]
      rw [Prod.mk.injEq] at h
      rw [takeDigits, hvalue, ih (Prod.ext rfl h.2), ← h.1]
    · cases h
      exact hrest

theorem takeDigits_of_takeWhole (h : takeWhole s = (values, rest))
    (hrest : takeDigits rest = ([], rest)) : takeDigits s = (values, rest) := by
  unfold takeWhole at h
  split at h
  · cases h
    rw [takeDigits, show Text.digitValue? '0' = some 0 from rfl, hrest]
  · exact takeDigits_of_takeAsciiDigits h hrest

/-- An exponent that JSON reads to the end of a text is read there as part of a literal. -/
theorem readExponent?_of_takeExponent {e : Option Int} (h : takeExponent s = (e, [])) :
    readExponent? s = some (e.getD 0) := by
  cases s with
  | nil =>
    cases h
    rfl
  | cons c s =>
    rcases hsign : takeSign s with ⟨negative, t⟩
    rcases htake : takeAsciiDigits t with ⟨_ | ⟨d, digits⟩, after⟩ <;>
      simp only [takeExponent, hsign, htake] at h <;> split at h
    · cases h
    · cases h
    · rename_i hletter
      cases h
      simp only [readExponent?, hsign, takeDigits_of_takeAsciiDigits htake rfl, if_pos hletter,
        List.isEmpty_cons, List.isEmpty_nil, Bool.not_false, Bool.and_true, if_true,
        Option.getD_some]
    · cases h

/-- What is read as an exponent to the end of a text starts with no digit and contains no
    point. -/
theorem takeDigits_of_takeExponent {e : Option Int} (h : takeExponent s = (e, [])) :
    takeDigits s = ([], s) := by
  rcases s with _ | ⟨c, s⟩
  · rfl
  · rw [takeExponent] at h
    split at h
    · rename_i hletter
      rcases Bool.or_eq_true_iff.mp hletter with hc | hc <;> rw [beq_iff_eq.mp hc] <;> rfl
    · cases h

theorem not_point_mem_of_takeExponent {e : Option Int} (h : takeExponent s = (e, [])) :
    '.' ∉ s := by
  intro hmem
  have hread := readExponent?_of_takeExponent h
  rw [readExponent?_of_mem (by decide) (by decide) (by decide) hmem] at hread
  cases hread

theorem mem_of_mem_takeDigits {c : Char} (h : c ∈ (takeDigits s).2) : c ∈ s := by
  induction s with
  | nil => exact h
  | cons a s ih =>
    rw [takeDigits] at h
    split at h
    · exact List.mem_cons_of_mem a (ih h)
    · exact h

theorem mem_of_mem_takeSign {c : Char} (h : c ∈ (takeSign s).2) : c ∈ s := by
  unfold takeSign at h
  split at h
  · exact List.mem_cons_of_mem _ h
  · exact List.mem_cons_of_mem _ h
  · exact h

/-- A float literal has a point. -/
theorem readFloat?_eq_none (h : '.' ∉ s) : readFloat? s = none := by
  unfold readFloat?
  dsimp only
  split
  · rename_i after htake
    refine absurd (mem_of_mem_takeSign (mem_of_mem_takeDigits ?_)) h
    rw [htake]
    exact List.mem_cons_self
  · rfl

end Readers

section Floats

variable {s rest : List Char} {negative : Bool} {j : Json}

/-- A JSON number with a point is a float literal. -/
theorem readFloat?_of_readUnsigned (h : readUnsigned negative s = .ok (j, []))
    (hpoint : '.' ∈ s) :
    ∃ d, j = .float d ∧ readFloat? (if negative then '-' :: s else s) = some d := by
  have hsign : takeSign (if negative then '-' :: s else s) = (negative, s) := by
    rcases readUnsigned_head h with ⟨c, t, rfl, hc⟩
    cases negative with
    | true => rfl
    | false => exact takeSign_unsigned (by constructor <;> rintro rfl <;> revert hc <;> decide) t
  rcases hwhole : takeWhole s with ⟨_ | ⟨first, whole⟩, afterWhole⟩
  · rw [readUnsigned, hwhole] at h
    cases h
  · rcases hplaces : takePlaces afterWhole with ⟨places, afterPlaces⟩
    rcases hexponent : takeExponent afterPlaces with ⟨e, afterExponent⟩
    have hend : afterExponent = [] := by
      simp only [readUnsigned, hwhole, hplaces, hexponent] at h
      rcases e with _ | e <;> rcases places with _ | places
      · rcases exists_of_map_eq_ok h with ⟨n, -, heq⟩
        exact (Prod.mk.inj heq).2
      all_goals
        rw [Except.ok.injEq, Prod.mk.injEq] at h
        exact h.2
    subst hend
    have hread := readExponent?_of_takeExponent hexponent
    unfold takePlaces at hplaces
    split at hplaces
    · rename_i t
      rcases htake : takeAsciiDigits t with ⟨_ | ⟨d, digits⟩, after⟩ <;> rw [htake] at hplaces <;>
        cases hplaces
      · cases hexponent
      · have hpoint : takeDigits ('.' :: t) = ([], '.' :: t) := rfl
        have hall := takeDigits_of_takeWhole hwhole hpoint
        have hafter := takeDigits_of_takeAsciiDigits htake (takeDigits_of_takeExponent hexponent)
        unfold readFloat?
        simp only [hsign, hall, hafter, hread, List.cons_append, List.isEmpty_cons,
          Bool.false_eq_true, if_false, Option.map_some]
        -- Without an exponent the power of ten is that of the last place.
        simp only [readUnsigned, hwhole, takePlaces, htake, hexponent] at h
        rcases e with _ | e
        · rw [Except.ok.injEq, Prod.mk.injEq] at h
          exact ⟨_, h.1.symm, by rw [Option.getD_none, Int.zero_sub]; rfl⟩
        · rw [Except.ok.injEq, Prod.mk.injEq] at h
          exact ⟨_, h.1.symm, rfl⟩
    · cases hplaces
      have hall := takeDigits_of_takeWhole hwhole (takeDigits_of_takeExponent hexponent)
      have hmem := mem_takeDigits (c := '.') (by decide) hpoint
      rw [hall] at hmem
      exact absurd hmem (not_point_mem_of_takeExponent hexponent)

end Floats

section Doubles

variable {c d : Char} {digits : List Char} {point : Int}

theorem isBlank_digit (hd : d.isDigit = true) : Text.isBlank d = false :=
  (isSymbolChar_cell (numeral_char (.inr hd)).1).2.2.1

theorem ne_of_isDigit (hd : d.isDigit = true) : d ≠ '.' ∧ d ≠ 'e' := by
  constructor <;> rintro rfl <;> exact absurd hd (by decide)

/-- Near one the digits stand on both sides of a point. -/
theorem layOut_near (hnear : -4 < point ∧ point ≤ 16) (hdigits : ∀ d ∈ digits, d.isDigit = true) :
    ∃ whole places, Double.layOut digits point = whole ++ '.' :: places
      ∧ ∀ d ∈ whole ++ places, d.isDigit = true := by
  -- The point stands before the digits, within them or after them.
  rcases le_or_gt point 0 with hsmall | hpos
  · refine ⟨['0'], List.replicate (-point).toNat '0' ++ digits, ?_, ?_⟩
    · unfold Double.layOut
      rw [if_pos (by simpa using hnear), if_pos hsmall]
      rfl
    · rw [List.singleton_append, List.forall_mem_cons, List.forall_mem_append]
      exact ⟨rfl, isDigit_replicate_zero, hdigits⟩
  · rcases Nat.lt_or_ge point.toNat digits.length with hshort | hlong
    · refine ⟨_, _, layOut_split hpos hnear.2 hshort, ?_⟩
      rw [List.take_append_drop]
      exact hdigits
    · refine ⟨_, _, layOut_padded hpos hnear.2 hlong, ?_⟩
      rw [List.forall_mem_append, List.forall_mem_append, List.forall_mem_singleton]
      exact ⟨⟨hdigits, isDigit_replicate_zero⟩, rfl⟩

/-- Far from one the first digit stands alone before a point, and an exponent follows. -/
theorem layOut_far (hfar : ¬(-4 < point ∧ point ≤ 16)) :
    Double.layOut (d :: digits) point
      = d :: ((if digits.isEmpty then [] else '.' :: digits)
        ++ 'e' :: Double.exponentText (point - 1)) := by
  unfold Double.layOut
  rw [if_neg (by simpa using hfar)]

theorem mem_exponentText {e : Int} (h : c ∈ Double.exponentText e) :
    c = '-' ∨ c = '+' ∨ c.isDigit = true := by
  have hdigits : ∀ d ∈ Nat.toDigits 10 e.natAbs, d.isDigit = true :=
    fun d hd => Text.isDigit_toDigits hd
  rw [Double.exponentText, List.mem_cons] at h
  rcases h with rfl | h
  · split
    · exact .inl rfl
    · exact .inr (.inl rfl)
  · split at h
    · rcases List.mem_cons.mp h with rfl | h
      · exact .inr (.inr rfl)
      · exact .inr (.inr (hdigits c h))
    · exact .inr (.inr (hdigits c h))

/-- Digits are laid out with a point, unless a single one is laid out with an exponent. -/
theorem point_mem_layOut (hdigits : ∀ d ∈ digits, d.isDigit = true) (hne : digits ≠ []) :
    '.' ∈ Double.layOut digits point ↔ (-4 < point ∧ point ≤ 16) ∨ digits.length ≠ 1 := by
  by_cases hnear : -4 < point ∧ point ≤ 16
  · rcases layOut_near hnear hdigits with ⟨whole, places, heq, -⟩
    rw [heq]
    exact ⟨fun _ => .inl hnear, fun _ => by simp⟩
  · rcases List.exists_cons_of_ne_nil hne with ⟨first, rest, rfl⟩
    have hfirst := (ne_of_isDigit (hdigits first List.mem_cons_self)).1
    have hexponent : '.' ∉ Double.exponentText (point - 1) := by
      intro hmem
      rcases mem_exponentText hmem with h | h | h <;> exact absurd h (by decide)
    rw [layOut_far hnear]
    cases rest with
    | nil => simp [hnear, hfirst.symm, hexponent]
    | cons next rest => simp

/-- Digits that are laid out without a point have an exponent. -/
theorem letter_mem_layOut (hdigits : ∀ d ∈ digits, d.isDigit = true) (hne : digits ≠ [])
    (h : '.' ∉ Double.layOut digits point) : 'e' ∈ Double.layOut digits point := by
  have hfar := fun hnear => h ((point_mem_layOut hdigits hne).mpr (.inl hnear))
  rcases List.exists_cons_of_ne_nil hne with ⟨first, rest, rfl⟩
  rw [layOut_far hfar]
  simp

theorem isBlank_layOut (hdigits : ∀ d ∈ digits, d.isDigit = true) (hne : digits ≠ [])
    (h : c ∈ Double.layOut digits point) : Text.isBlank c = false := by
  -- Numbers of a common size are written out, others have an exponent.
  by_cases hnear : -4 < point ∧ point ≤ 16
  · rcases layOut_near hnear hdigits with ⟨whole, places, heq, hall⟩
    rw [heq, List.mem_append, List.mem_cons] at h
    rcases h with h | rfl | h
    · exact isBlank_digit (hall c (List.mem_append_left _ h))
    · decide
    · exact isBlank_digit (hall c (List.mem_append_right _ h))
  · rcases List.exists_cons_of_ne_nil hne with ⟨first, rest, rfl⟩
    rw [layOut_far hnear, List.mem_cons, List.mem_append, List.mem_cons] at h
    rcases h with rfl | h | rfl | h
    · exact isBlank_digit (hdigits c List.mem_cons_self)
    · split at h
      · cases h
      · rcases List.mem_cons.mp h with rfl | h
        · decide
        · exact isBlank_digit (hdigits c (List.mem_cons_of_mem _ h))
    · decide
    · rcases mem_exponentText h with rfl | rfl | h
      · decide
      · decide
      · exact isBlank_digit h

theorem magnitudeText_layOut {rank : Nat} (hpos : 0 < rank) :
    Double.magnitudeText rank
      = Double.layOut (Double.trimZeros (Nat.toDigits 10 (Double.shortest rank).1))
        ((Nat.toDigits 10 (Double.shortest rank).1).length + (Double.shortest rank).2) := by
  rw [Double.magnitudeText, if_neg (by rw [beq_iff_eq]; omega)]

/-- The digits that are laid out for a number above zero. -/
theorem significant_digits (rank : Fin 0x7FF0000000000000) (hpos : 0 < rank.val) :
    Double.trimZeros (Nat.toDigits 10 (Double.shortest rank).1) ≠ []
      ∧ ∀ d ∈ Double.trimZeros (Nat.toDigits 10 (Double.shortest rank).1), d.isDigit = true := by
  have hback := Double.surrounds_of_readsBack (@Double.readsBack_shortest rank hpos)
  rcases trimZeros_toDigits (Double.digits_pos_of_surrounds hpos hback)
    with ⟨first, rest, k, htrim, -, hdigits, -⟩
  rw [htrim]
  exact ⟨List.cons_ne_nil first rest, hdigits⟩

theorem isBlank_magnitudeText (rank : Fin 0x7FF0000000000000)
    (h : c ∈ Double.magnitudeText rank) : Text.isBlank c = false := by
  rcases Nat.eq_zero_or_pos rank.val with hzero | hpos
  · rw [hzero] at h
    have hchars : c ∈ ['0', '.', '0'] := h
    rw [List.mem_cons, List.mem_cons, List.mem_singleton] at hchars
    rcases hchars with rfl | rfl | rfl <;> decide
  · rcases significant_digits rank hpos with ⟨hne, hdigits⟩
    rw [magnitudeText_layOut hpos] at h
    exact isBlank_layOut hdigits hne h

/-- A double is written with a point or with the letter of an exponent. -/
theorem point_mem_magnitudeText (negative : Bool) (rank : Fin 0x7FF0000000000000) :
    '.' ∈ Double.magnitudeText rank ↔ (Double.finite negative rank).hasPoint = true := by
  rcases Nat.eq_zero_or_pos rank.val with hzero | hpos
  · rw [Double.hasPoint, hzero]
    decide
  · rcases significant_digits rank hpos with ⟨hne, hdigits⟩
    rw [magnitudeText_layOut hpos, point_mem_layOut hdigits hne, Double.hasPoint]
    have hrank : (rank.val == 0) = false := by
      rw [beq_eq_false_iff_ne]
      omega
    simp [hrank]

theorem letter_mem_magnitudeText (rank : Fin 0x7FF0000000000000)
    (h : '.' ∉ Double.magnitudeText rank) : 'e' ∈ Double.magnitudeText rank := by
  rcases Nat.eq_zero_or_pos rank.val with hzero | hpos
  · rw [hzero] at h
    exact absurd (by decide) h
  · rcases significant_digits rank hpos with ⟨hne, hdigits⟩
    rw [magnitudeText_layOut hpos] at h ⊢
    exact letter_mem_layOut hdigits hne h

/-- A finite double begins with a minus or a digit. -/
theorem exists_head_magnitudeText (rank : Fin 0x7FF0000000000000) :
    ∃ c t, Double.magnitudeText rank = c :: t ∧ c.isDigit = true := by
  have hread := readUnsigned_magnitudeText false rank numberEnds_nil
  rcases readUnsigned_head hread with ⟨c, t, heq, hc⟩
  rw [List.append_nil] at heq
  refine ⟨c, t, heq, ?_⟩
  simp only [Char.isDigit, Bool.and_eq_true, decide_eq_true_eq, ge_iff_le, UInt32.le_iff_toNat_le]
  exact hc

end Doubles

section Values

variable {v : Value} {s : String}

/-- The text of a finite double denotes it if there is a point in it, and else itself. -/
theorem Value.ofLiteral_finite (negative : Bool) (rank : Fin 0x7FF0000000000000) :
    Value.ofLiteral (Double.finite negative rank).text.toList
      = .ok (if (Double.finite negative rank).hasPoint then .float (.finite negative rank)
        else .text (Double.finite negative rank).text) := by
  have hread := readUnsigned_magnitudeText negative rank numberEnds_nil
  have hpoint := point_mem_magnitudeText negative rank
  rcases exists_head_magnitudeText rank with ⟨first, t, hmagnitude, hfirst⟩
  rw [List.append_nil] at hread
  set text := (Double.finite negative rank).text.toList with htext
  have hsigned : text
      = if negative then '-' :: Double.magnitudeText rank else Double.magnitudeText rank := by
    rw [htext, Double.text, Double.textWith, String.toList_ofList]
  obtain ⟨c, rest, hcons, hc⟩ : ∃ c rest, text = c :: rest ∧ (c = '-' ∨ c.isDigit = true) := by
    rw [hsigned]
    cases negative with
    | true => exact ⟨_, _, rfl, .inl rfl⟩
    | false => exact ⟨first, t, hmagnitude, .inr hfirst⟩
  -- No character of the text is a blank, so nothing is trimmed.
  have htrim : Text.Trimmed Text.isBlank text := by
    refine Text.trimmed_of_forall (by rw [hcons]; exact List.cons_ne_nil c rest) fun a ha => ?_
    rw [hsigned] at ha
    split at ha
    · rcases List.mem_cons.mp ha with rfl | ha
      · decide
      · exact isBlank_magnitudeText rank ha
    · exact isBlank_magnitudeText rank ha
  have hmem : ∀ {a : Char}, a ≠ '-' → (a ∈ text ↔ a ∈ Double.magnitudeText rank) := by
    intro a ha
    rw [hsigned]
    split
    · rw [List.mem_cons, or_iff_right ha]
    · rfl
  rw [Value.ofLiteral, Text.trimBlanks, htrim.trimBy, hcons, ofTrimmed_numeral hc, ← hcons]
  by_cases hdot : '.' ∈ Double.magnitudeText rank
  · rcases readFloat?_of_readUnsigned hread hdot with ⟨d, hd, hfloat⟩
    cases hd
    rw [← hsigned] at hfloat
    rw [hfloat, Option.filter_some_pos rfl, if_pos (hpoint.mp hdot)]
  · have hfloat := readFloat?_eq_none ((hmem (by decide)).not.mpr hdot)
    -- Without a point the text has an exponent, whose letter no integer has.
    have hletter := (hmem (by decide)).mpr (letter_mem_magnitudeText rank hdot)
    have hinteger := readInteger?_of_mem (by decide) (by decide) hletter
    rw [hfloat, hinteger, if_neg (hpoint.not.mp hdot), htext, String.ofList_toList]
    rfl

/-- The text of a value denotes it. Only that of a double without a point denotes itself. -/
theorem Value.ofLiteral_plainText (h : v.plainText? = some s) :
    ((∀ d, v = .float d → d.hasPoint = true) → Value.ofLiteral s.toList = .ok v)
    ∧ ∀ d, v = .float d → d.hasPoint = false → Value.ofLiteral s.toList = .ok (.text s) := by
  cases v with
  | null =>
    cases h
    exact ⟨fun _ => rfl, fun d hd => by cases hd⟩
  | bool b =>
    cases h
    exact ⟨fun _ => by cases b <;> rfl, fun d hd => by cases hd⟩
  | int n =>
    rw [plainText?] at h
    split at h
    · rename_i hn
      cases h
      have hread := ofLiteral_cells (v := .int n) hn
      rw [cells, cellChars_plain] at hread
      exact ⟨fun _ => hread, fun d hd => by cases hd⟩
    · cases h
  | float d =>
    cases d with
    | finite negative rank =>
      cases h
      have hread := ofLiteral_finite negative rank
      refine ⟨fun hpoint => ?_, fun d hd hpoint => ?_⟩
      · rw [hread, if_pos (hpoint _ rfl)]
      · cases hd
        rw [hread, if_neg (by rw [hpoint]; exact Bool.false_ne_true)]
    | infinite _ | nan => cases h
  | text _ | bytes _ | array _ | object _ => cases h

/-- A float whose text has both a point and an exponent. -/
theorem Value.ofLiteral_plainText_exponent :
    (Value.float (.finite true ⟨0x3E84248BB8EEC5E9, by decide⟩)).plainText?
      = some "-1.5007523443198217e-07"
    ∧ Value.ofLiteral "-1.5007523443198217e-07".toList
      = .ok (.float (.finite true ⟨0x3E84248BB8EEC5E9, by decide⟩)) := by
  have htext : (Value.float (.finite true ⟨0x3E84248BB8EEC5E9, by decide⟩)).plainText?
      = some "-1.5007523443198217e-07" := by
    decide +kernel
  refine ⟨htext, (ofLiteral_plainText htext).1 fun d hd => ?_⟩
  cases hd
  decide +kernel

/-- The text of ten to the sixteenth has no point, and it is read as a text. -/
theorem Value.ofLiteral_plainText_pointless :
    (Value.float (.finite false ⟨0x4341C37937E08000, by decide⟩)).plainText? = some "1e+16"
    ∧ Value.ofLiteral "1e+16".toList
      ≠ .ok (.float (.finite false ⟨0x4341C37937E08000, by decide⟩)) := by
  decide +kernel

end Values

end TableStore
