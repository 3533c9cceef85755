import TableStore.Proofs.Text.Utf8

/-!
# Each Text Has One Spelling

The bytes that are read as a text are those that the text is written with. The
reader gives the code point that the bytes spell, and what is shown here is that no
other bytes spell it: the first byte and the ranges for the second one leave every
code point just the form that it is written in.

So bytes that are not read are those of no text, and a name that is read from a key
leads back to the same key.

## Theorems

* `encodeChar_of_one`, `encodeChar_of_two`, `encodeChar_of_three`, `encodeChar_of_four`:
  What a code point is written with, from the bytes that spell it.
* `exists_encodeChar_of_readAfter`: The bytes of a character that is read.
* `eq_encodeChars_of_readChars`: The bytes of characters that are all read.
* `decode?_eq_some`: The bytes that are read as a text.
* `decode?_eq_none`: The bytes that are not read.
-/

namespace TableStore

namespace Text

variable {b n m k : UInt8} {c : Char} {point : Nat} {s rest : Bytes}

/-- A byte that goes on with a character is in the range that is asked for. -/
theorem readTail_eq_some {owed low high value : Nat}
    (h : readTail (owed + 1) low high value s = (some point, rest)) :
    ∃ (n : UInt8) (t : Bytes), s = n :: t ∧ low ≤ n.toNat ∧ n.toNat ≤ high
      ∧ readTail owed 0x80 0xBF (64 * value + (n.toNat - 0x80)) t = (some point, rest) := by
  cases s with
  | nil => exact absurd (Prod.mk.inj h).1 (by simp)
  | cons n t =>
    rw [readTail] at h
    split at h
    · rename_i hrange
      rw [Bool.and_eq_true, decide_eq_true_eq, decide_eq_true_eq] at hrange
      exact ⟨n, t, rfl, hrange.1, hrange.2, h⟩
    · exact absurd (Prod.mk.inj h).1 (by simp)

theorem readTail_one_eq_some {low high value : Nat}
    (h : readTail 1 low high value s = (some point, rest)) :
    ∃ n : UInt8, s = n :: rest ∧ low ≤ n.toNat ∧ n.toNat ≤ high
      ∧ point = 64 * value + (n.toNat - 0x80) := by
  rcases readTail_eq_some h with ⟨n, t, rfl, hlow, hhigh, hrest⟩
  rw [readTail_zero, Prod.mk.injEq, Option.some.injEq] at hrest
  exact ⟨n, by rw [hrest.2], hlow, hhigh, hrest.1.symm⟩

theorem readTail_two_eq_some {low high value : Nat}
    (h : readTail 2 low high value s = (some point, rest)) :
    ∃ n m : UInt8, s = n :: m :: rest ∧ low ≤ n.toNat ∧ n.toNat ≤ high
      ∧ 0x80 ≤ m.toNat ∧ m.toNat ≤ 0xBF
      ∧ point = 64 * (64 * value + (n.toNat - 0x80)) + (m.toNat - 0x80) := by
  rcases readTail_eq_some h with ⟨n, t, rfl, hlow, hhigh, hrest⟩
  rcases readTail_one_eq_some hrest with ⟨m, rfl, hmlow, hmhigh, hpoint⟩
  exact ⟨n, m, rfl, hlow, hhigh, hmlow, hmhigh, hpoint⟩

theorem readTail_three_eq_some {low high value : Nat}
    (h : readTail 3 low high value s = (some point, rest)) :
    ∃ n m k : UInt8, s = n :: m :: k :: rest ∧ low ≤ n.toNat ∧ n.toNat ≤ high
      ∧ 0x80 ≤ m.toNat ∧ m.toNat ≤ 0xBF ∧ 0x80 ≤ k.toNat ∧ k.toNat ≤ 0xBF
      ∧ point = 64 * (64 * (64 * value + (n.toNat - 0x80)) + (m.toNat - 0x80)) + (k.toNat - 0x80) := by
  rcases readTail_eq_some h with ⟨n, t, rfl, hlow, hhigh, hrest⟩
  rcases readTail_two_eq_some hrest with ⟨m, k, rfl, hmlow, hmhigh, hklow, hkhigh, hpoint⟩
  exact ⟨n, m, k, rfl, hlow, hhigh, hmlow, hmhigh, hklow, hkhigh, hpoint⟩

theorem encodeChar_of_one (hb : b.toNat < 0x80) (hc : c.toNat = b.toNat) : encodeChar c = [b] := by
  rw [encodeChar, if_pos (by omega), ofNat_eq_byte hc]

theorem encodeChar_of_two (hb : 0xC2 ≤ b.toNat ∧ b.toNat < 0xE0)
    (hn : 0x80 ≤ n.toNat ∧ n.toNat ≤ 0xBF)
    (hc : c.toNat = 64 * (b.toNat - 0xC0) + (n.toNat - 0x80)) : encodeChar c = [b, n] := by
  rw [encodeChar, if_neg (by omega), if_pos (by omega), @ofNat_eq_byte _ b (by omega),
    @ofNat_eq_byte _ n (by omega)]

/-- Bytes of the three-byte form are written for their code point unless a shorter
    form has it. -/
theorem encodeChar_of_three (hb : 0xE0 ≤ b.toNat ∧ b.toNat < 0xF0)
    (hn : 0x80 ≤ n.toNat ∧ n.toNat ≤ 0xBF) (hm : 0x80 ≤ m.toNat ∧ m.toNat ≤ 0xBF)
    (hc : c.toNat = 64 * (64 * (b.toNat - 0xE0) + (n.toNat - 0x80)) + (m.toNat - 0x80))
    (hlong : 0x800 ≤ c.toNat) : encodeChar c = [b, n, m] := by
  rw [encodeChar, if_neg (by omega), if_neg (by omega), if_pos (by omega),
    @ofNat_eq_byte _ b (by omega), @ofNat_eq_byte _ n (by omega), @ofNat_eq_byte _ m (by omega)]

theorem encodeChar_of_four (hb : 0xF0 ≤ b.toNat) (hn : 0x80 ≤ n.toNat ∧ n.toNat ≤ 0xBF)
    (hm : 0x80 ≤ m.toNat ∧ m.toNat ≤ 0xBF) (hk : 0x80 ≤ k.toNat ∧ k.toNat ≤ 0xBF)
    (hc : c.toNat = 64 * (64 * (64 * (b.toNat - 0xF0) + (n.toNat - 0x80)) + (m.toNat - 0x80))
      + (k.toNat - 0x80))
    (hlong : 0x10000 ≤ c.toNat) : encodeChar c = [b, n, m, k] := by
  rw [encodeChar, if_neg (by omega), if_neg (by omega), if_neg (by omega),
    @ofNat_eq_byte _ b (by omega), @ofNat_eq_byte _ n (by omega), @ofNat_eq_byte _ m (by omega),
    @ofNat_eq_byte _ k (by omega)]

/-- There is a character for every code point but the surrogates. -/
theorem exists_char (h : point.isValidChar) : ∃ c : Char, c.toNat = point :=
  ⟨Char.ofNatAux point h, rfl⟩

theorem exists_encodeChar_of_one (hb : b.toNat < 0x80) (s : Bytes) :
    ∃ c : Char, c.toNat = b.toNat ∧ b :: s = encodeChar c ++ s := by
  have hvalid : b.toNat.isValidChar := Or.inl (by omega)
  rcases exists_char hvalid with ⟨c, hc⟩
  exact ⟨c, hc, by rw [encodeChar_of_one hb hc, List.singleton_append]⟩

/-- A character read after a first byte of the two-byte form, of which the lowest
    two are left out. -/
theorem exists_encodeChar_of_two (hb : 0xC2 ≤ b.toNat ∧ b.toNat < 0xE0)
    (h : readTail 1 0x80 0xBF (b.toNat - 0xC0) s = (some point, rest)) :
    ∃ c : Char, c.toNat = point ∧ b :: s = encodeChar c ++ rest := by
  rcases readTail_one_eq_some h with ⟨n, rfl, hn, hn', hpoint⟩
  have hvalid : point.isValidChar := Or.inl (by omega)
  rcases exists_char hvalid with ⟨c, hc⟩
  refine ⟨c, hc, ?_⟩
  rw [encodeChar_of_two hb ⟨hn, hn'⟩ (hc.trans hpoint)]
  rfl

/-- A character read after a first byte of the three-byte form. The range of the
    second byte has to leave out shorter forms and surrogates. -/
theorem exists_encodeChar_of_three {low high : Nat} (hb : 0xE0 ≤ b.toNat ∧ b.toNat < 0xF0)
    (hlow : 0x80 ≤ low) (hhigh : high ≤ 0xBF) (hlong : 0xE0 < b.toNat ∨ 0xA0 ≤ low)
    (hsurrogate : b.toNat ≠ 0xED ∨ high ≤ 0x9F)
    (h : readTail 2 low high (b.toNat - 0xE0) s = (some point, rest)) :
    ∃ c : Char, c.toNat = point ∧ b :: s = encodeChar c ++ rest := by
  rcases readTail_two_eq_some h with ⟨n, m, rfl, hn, hn', hm, hm', hpoint⟩
  have hvalid : point.isValidChar := by
    rw [Nat.isValidChar]
    omega
  rcases exists_char hvalid with ⟨c, hc⟩
  refine ⟨c, hc, ?_⟩
  rw [encodeChar_of_three hb ⟨by omega, by omega⟩ ⟨hm, hm'⟩ (hc.trans hpoint) (by omega)]
  rfl

/-- A character read after a first byte of the four-byte form. The range of the
    second byte has to leave out shorter forms and what is beyond the last code
    point. -/
theorem exists_encodeChar_of_four {low high : Nat} (hb : 0xF0 ≤ b.toNat ∧ b.toNat ≤ 0xF4)
    (hlow : 0x80 ≤ low) (hhigh : high ≤ 0xBF) (hlong : 0xF0 < b.toNat ∨ 0x90 ≤ low)
    (hlast : b.toNat < 0xF4 ∨ high ≤ 0x8F)
    (h : readTail 3 low high (b.toNat - 0xF0) s = (some point, rest)) :
    ∃ c : Char, c.toNat = point ∧ b :: s = encodeChar c ++ rest := by
  rcases readTail_three_eq_some h with ⟨n, m, k, rfl, hn, hn', hm, hm', hk, hk', hpoint⟩
  have hvalid : point.isValidChar := by
    rw [Nat.isValidChar]
    omega
  rcases exists_char hvalid with ⟨c, hc⟩
  refine ⟨c, hc, ?_⟩
  rw [encodeChar_of_four hb.1 ⟨by omega, by omega⟩ ⟨hm, hm'⟩ ⟨hk, hk'⟩ (hc.trans hpoint) (by omega)]
  rfl

/-- A character that is read after its first byte was written with the bytes that
    are read. -/
theorem exists_encodeChar_of_readAfter (h : readAfter b.toNat s = (some point, rest)) :
    ∃ c : Char, c.toNat = point ∧ b :: s = encodeChar c ++ rest := by
  rw [readAfter] at h
  -- The cases are the first bytes, in the order in which the reader tells them apart.
  split at h
  · rename_i hone
    rcases Prod.mk.inj h with ⟨hpoint, rfl⟩
    rw [← Option.some.inj hpoint]
    exact exists_encodeChar_of_one hone s
  split at h
  · exact absurd (Prod.mk.inj h).1 (by simp)
  split at h
  · exact exists_encodeChar_of_two (by omega) h
  split at h
  · rename_i hE0
    rw [beq_iff_eq] at hE0
    rw [show 0 = b.toNat - 0xE0 by omega] at h
    exact exists_encodeChar_of_three (by omega) (by decide) (by decide) (by omega) (by omega) h
  split at h
  · rename_i hED
    rw [beq_iff_eq] at hED
    rw [show 0xD = b.toNat - 0xE0 by omega] at h
    exact exists_encodeChar_of_three (by omega) (by decide) (by decide) (by omega) (by omega) h
  split at h
  · rename_i hE0 hED hthree
    rw [beq_iff_eq] at hE0 hED
    exact exists_encodeChar_of_three (by omega) (by decide) (by decide) (by omega) (by omega) h
  rename_i hthree
  split at h
  · rename_i hF0
    rw [beq_iff_eq] at hF0
    rw [show 0 = b.toNat - 0xF0 by omega] at h
    exact exists_encodeChar_of_four (by omega) (by decide) (by decide) (by omega) (by omega) h
  split at h
  · rename_i hF0 hfour
    rw [beq_iff_eq] at hF0
    exact exists_encodeChar_of_four (by omega) (by decide) (by decide) (by omega) (by omega) h
  split at h
  · rename_i hF4
    rw [beq_iff_eq] at hF4
    rw [show 4 = b.toNat - 0xF0 by omega] at h
    exact exists_encodeChar_of_four (by omega) (by decide) (by decide) (by omega) (by omega) h
  · exact absurd (Prod.mk.inj h).1 (by simp)

/-- With a step for each byte, bytes whose characters are all read are those that the
    characters are written with. -/
theorem eq_encodeChars_of_readChars {steps : Nat} {t : List Char} (hsteps : s.length ≤ steps)
    (h : (readChars steps s).mapM id = some t) : s = encodeChars t := by
  -- One step reads one character, and what is left after it is shorter.
  induction steps generalizing s t with
  | zero =>
    rw [List.length_eq_zero_iff.mp (Nat.le_zero.mp hsteps)] at h ⊢
    rw [readChars] at h
    rw [← Option.some.inj h]
    rfl
  | succ steps ih =>
    cases s with
    | nil =>
      rw [readChars] at h
      rw [← Option.some.inj h]
      rfl
    | cons b s =>
      rcases hread : readAfter b.toNat s with ⟨point?, rest⟩
      rw [readChars, hread] at h
      cases point? with
      | none => exact absurd h (by simp)
      | some point =>
        rcases exists_encodeChar_of_readAfter hread with ⟨c, rfl, hbytes⟩
        simp only [Option.map_some, Char.ofNat_toNat, List.mapM_cons, id_eq, Option.bind_eq_bind,
          Option.bind_some, Option.pure_def, Option.bind_eq_some_iff, Option.some.injEq] at h
        rcases h with ⟨chars, hchars, rfl⟩
        have hlength := congrArg List.length hbytes
        have hpos := length_encodeChar_pos c
        rw [List.length_cons, List.length_append] at hlength
        rw [List.length_cons] at hsteps
        rw [hbytes, ih (by omega) hchars, encodeChars, encodeChars, List.flatMap_cons]

/-- The bytes that are read as a text are those that it is written with. -/
theorem decode?_eq_some {t : String} : decode? s = some t ↔ encode t = s := by
  constructor
  · intro h
    rcases Option.map_eq_some_iff.mp h with ⟨chars, hchars, rfl⟩
    rw [encode, String.toList_ofList, ← eq_encodeChars_of_readChars Nat.le.refl hchars]
  · rintro rfl
    exact decode?_encode t

/-- The bytes that are not read are those of no text. -/
theorem decode?_eq_none : decode? s = none ↔ ∀ t : String, encode t ≠ s := by
  rw [Option.eq_none_iff_forall_ne_some]
  exact forall_congr' fun t => not_congr decode?_eq_some

end Text

end TableStore
