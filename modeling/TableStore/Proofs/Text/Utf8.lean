import TableStore.Text.Utf8

/-!
# UTF-8 Round Trip

The bytes of a text are read back as the text. A character is written in one
of four forms by the size of its code point, and the reader finds the form from
the first byte alone, so each form is a lemma of its own. The ranges that the
reader accepts for the second byte are the point of these lemmas: they exclude
the overlong forms and the surrogates, and no character is written that way.

Since reading undoes writing, different texts have different bytes. Names and
ids in keys rest on that.

## Theorems

* `readAfter_one`, `readAfter_two`, `readAfter_three`, `readAfter_four`: Each
  form reads back.
* `characters_encodeChars`: The characters of written text are the text.
* `decode?_encode`: Reading undoes writing.
* `encode_injective`: Different texts have different bytes.
-/

namespace TableStore

namespace Text

theorem toNat_ofNat_byte {n : Nat} (h : n < 256) : (UInt8.ofNat n).toNat = n := by
  rw [UInt8.toNat_ofNat']
  exact Nat.mod_eq_of_lt h

theorem ofNat_eq_byte {n : Nat} {b : UInt8} (h : n = b.toNat) : UInt8.ofNat n = b := by
  rw [h, UInt8.ofNat_toNat]

/-- A code point is below the surrogates, or above them and in range. -/
theorem toNat_valid (c : Char) :
    c.toNat < 0xD800 ∨ (0xDFFF < c.toNat ∧ c.toNat < 0x110000) := by
  have h := c.valid
  simp only [UInt32.isValidChar, Nat.isValidChar] at h
  exact h

theorem readTail_succ {owed low high value n : Nat} {s : Bytes} (hn : n < 256) (hlow : low ≤ n)
    (hhigh : n ≤ high) :
    readTail (owed + 1) low high value (UInt8.ofNat n :: s)
      = readTail owed 0x80 0xBF (64 * value + (n - 0x80)) s := by
  rw [readTail, toNat_ofNat_byte hn, if_pos (by simp [hlow, hhigh])]

theorem readTail_zero {low high value : Nat} {s : Bytes} :
    readTail 0 low high value s = (some value, s) := by
  cases s <;> rfl

/-- The last two bytes of a character, of which the first is in the range that
    the form allows. -/
theorem readTail_two {low high value n m : Nat} {s : Bytes} (hlow : low ≤ n) (hhigh : n ≤ high)
    (hn : n < 256) (hm : 0x80 ≤ m ∧ m ≤ 0xBF) :
    readTail 2 low high value (UInt8.ofNat n :: UInt8.ofNat m :: s)
      = (some (64 * (64 * value + (n - 0x80)) + (m - 0x80)), s) := by
  rw [readTail_succ hn hlow hhigh, readTail_succ (by omega) hm.1 hm.2, readTail_zero]

theorem readAfter_one {n : Nat} (h : n < 0x80) (s : Bytes) : readAfter n s = (some n, s) := by
  rw [readAfter, if_pos h]

theorem readAfter_two {n : Nat} (hl : 0x80 ≤ n) (hu : n < 0x800) (s : Bytes) :
    readAfter (0xC0 + n / 64) (UInt8.ofNat (0x80 + n % 64) :: s) = (some n, s) := by
  have hfirst : 0xC2 ≤ 0xC0 + n / 64 ∧ 0xC0 + n / 64 < 0xE0 := by omega
  rw [readAfter, if_neg (by omega), if_neg (by omega), if_pos hfirst.2,
    readTail_succ (by omega) (by omega) (by omega), readTail_zero]
  exact congrArg (fun n => (some n, s)) (by omega)

/-- The second byte of the three-byte form lies in the range that the first
    one allows. -/
theorem readAfter_three {n : Nat} (hl : 0x800 ≤ n) (hu : n < 0x10000)
    (hs : n < 0xD800 ∨ 0xDFFF < n) (s : Bytes) :
    readAfter (0xE0 + n / 4096)
      (UInt8.ofNat (0x80 + n / 64 % 64) :: UInt8.ofNat (0x80 + n % 64) :: s) = (some n, s) := by
  rw [readAfter, if_neg (by omega), if_neg (by omega), if_neg (by omega)]
  -- Two first bytes narrow the range of the second one: after the lowest no
  -- overlong form is read, and after the other no surrogate.
  by_cases hE0 : 0xE0 + n / 4096 = 0xE0
  · rw [if_pos (by simpa using hE0), readTail_two (by omega) (by omega) (by omega) (by omega)]
    exact congrArg (fun n => (some n, s)) (by omega)
  · rw [if_neg (by simpa using hE0)]
    by_cases hED : 0xE0 + n / 4096 = 0xED
    · rw [if_pos (by simpa using hED), readTail_two (by omega) (by omega) (by omega) (by omega)]
      exact congrArg (fun n => (some n, s)) (by omega)
    · rw [if_neg (by simpa using hED), if_pos (by omega),
        readTail_two (by omega) (by omega) (by omega) (by omega)]
      exact congrArg (fun n => (some n, s)) (by omega)

theorem readAfter_four {n : Nat} (hl : 0x10000 ≤ n) (hu : n < 0x110000) (s : Bytes) :
    readAfter (0xF0 + n / 262144)
      (UInt8.ofNat (0x80 + n / 4096 % 64) :: UInt8.ofNat (0x80 + n / 64 % 64)
        :: UInt8.ofNat (0x80 + n % 64) :: s) = (some n, s) := by
  rw [readAfter, if_neg (by omega), if_neg (by omega), if_neg (by omega),
    if_neg (by rw [beq_iff_eq]; omega), if_neg (by rw [beq_iff_eq]; omega), if_neg (by omega)]
  -- As before, the lowest first byte excludes overlong forms. The highest one
  -- excludes what is beyond the last code point.
  by_cases hF0 : 0xF0 + n / 262144 = 0xF0
  · rw [if_pos (by simpa using hF0), readTail_succ (by omega) (by omega) (by omega),
      readTail_two (by omega) (by omega) (by omega) (by omega)]
    exact congrArg (fun n => (some n, s)) (by omega)
  · rw [if_neg (by simpa using hF0)]
    by_cases hF4 : 0xF0 + n / 262144 = 0xF4
    · rw [if_neg (by omega), if_pos (by simpa using hF4),
        readTail_succ (by omega) (by omega) (by omega),
        readTail_two (by omega) (by omega) (by omega) (by omega)]
      exact congrArg (fun n => (some n, s)) (by omega)
    · rw [if_pos (by omega), readTail_succ (by omega) (by omega) (by omega),
        readTail_two (by omega) (by omega) (by omega) (by omega)]
      exact congrArg (fun n => (some n, s)) (by omega)

/-- The bytes of a character start with a byte after which the character is
    read. -/
theorem readAfter_encodeChar (c : Char) (s : Bytes) :
    ∃ b rest, encodeChar c ++ s = b :: rest ∧ readAfter b.toNat rest = (some c.toNat, s) := by
  have hv := toNat_valid c
  unfold encodeChar
  -- One case for each length of a code.
  by_cases h1 : c.toNat < 0x80
  · refine ⟨UInt8.ofNat c.toNat, s, by simp only [h1, if_true, List.cons_append, List.nil_append], ?_⟩
    rw [toNat_ofNat_byte (by omega)]
    exact readAfter_one h1 s
  by_cases h2 : c.toNat < 0x800
  · refine ⟨_, _, by simp only [h1, h2, if_true, if_false, List.cons_append, List.nil_append]; rfl, ?_⟩
    rw [toNat_ofNat_byte (by omega)]
    exact readAfter_two (by omega) h2 s
  by_cases h3 : c.toNat < 0x10000
  · refine ⟨_, _, by simp only [h1, h2, h3, if_true, if_false, List.cons_append,
      List.nil_append]; rfl, ?_⟩
    rw [toNat_ofNat_byte (by omega)]
    exact readAfter_three (by omega) h3 (by omega) s
  · refine ⟨_, _, by simp only [h1, h2, h3, if_false, List.cons_append, List.nil_append]; rfl, ?_⟩
    rw [toNat_ofNat_byte (by omega)]
    exact readAfter_four (by omega) (by omega) s

theorem length_encodeChar_pos (c : Char) : 0 < (encodeChar c).length := by
  simp only [encodeChar]
  split
  · simp
  · split
    · simp
    · split <;> simp

/-- With a step for each character the bytes of a text are read as the text. -/
theorem readChars_encodeChars (s : List Char) (steps : Nat) (h : s.length ≤ steps) :
    readChars steps (encodeChars s) = s.map some := by
  induction s generalizing steps with
  | nil => cases steps <;> rfl
  | cons c s ih =>
    cases steps with
    | zero => exact absurd h (by simp)
    | succ steps =>
      rcases readAfter_encodeChar c (encodeChars s) with ⟨b, rest, hb, hread⟩
      have hcons : encodeChars (c :: s) = b :: rest := by
        rw [← hb, encodeChars, List.flatMap_cons, encodeChars]
      rw [hcons, readChars, hread]
      simp only [Option.map_some, Char.ofNat_toNat, List.map_cons]
      rw [ih steps (by simpa using h)]

theorem length_le_encodeChars (s : List Char) : s.length ≤ (encodeChars s).length := by
  induction s with
  | nil => exact Nat.le_refl 0
  | cons c s ih =>
    have hc := length_encodeChar_pos c
    rw [encodeChars, List.flatMap_cons, List.length_append, List.length_cons]
    have : s.length ≤ (List.flatMap encodeChar s).length := ih
    omega

/-- A text in ASCII has one byte for each character. -/
theorem length_encodeChars_ascii {s : List Char} (h : ∀ c ∈ s, c.toNat < 128) :
    (encodeChars s).length = s.length := by
  induction s with
  | nil => rfl
  | cons c s ih =>
    have hc := h c List.mem_cons_self
    rw [encodeChars, List.flatMap_cons, List.length_append, List.length_cons, encodeChar,
      if_pos hc, List.length_singleton, Nat.add_comm 1]
    exact congrArg Nat.succ (ih fun d hd => h d (List.mem_cons_of_mem c hd))

/-- The characters of written text are the text. -/
theorem characters_encodeChars (s : List Char) : characters (encodeChars s) = s.map some :=
  readChars_encodeChars s _ (length_le_encodeChars s)

theorem mapM_id_map_some {α : Type} (s : List α) : (s.map some).mapM id = some s := by
  induction s with
  | nil => rfl
  | cons a s ih => rw [List.map_cons, List.mapM_cons, ih]; rfl

theorem decode?_encodeChars (s : List Char) : decode? (encodeChars s) = some (String.ofList s) := by
  rw [decode?, characters_encodeChars, mapM_id_map_some]
  rfl

/-- Reading undoes writing. -/
theorem decode?_encode (s : String) : decode? (encode s) = some s := by
  rw [encode, decode?_encodeChars, String.ofList_toList]

/-- Different texts have different bytes. -/
theorem encode_injective {s t : String} (h : encode s = encode t) : s = t := by
  have hs := decode?_encode s
  rw [h, decode?_encode] at hs
  exact (Option.some.inj hs).symm

end Text

end TableStore
