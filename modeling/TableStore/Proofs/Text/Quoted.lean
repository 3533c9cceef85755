import TableStore.Proofs.Json.Text
import TableStore.Text.Quoted

/-!
# Byte Strings Read Back From Their Literals

A byte string is shown as a literal in quotes. Which of the two quotes it is
depends on the bytes, so the byte of a quote may stand for itself or have an
escape. Either way it is clear where the form of a byte ends and which byte it
is, and so the literal can be read back one byte after the other.

## Main definitions

* `Text.readByte?`: The byte at the start of a literal's content.
* `Text.unquoteBytes`: The byte string that a literal shows.

## Theorems

* `Text.readByte?_quoteByte`: A byte is read back.
* `Text.unquoteBytes_quoteBytes`: A byte string is read back.
-/

namespace TableStore

namespace Text

/-- The byte that is read after a backslash, and the rest. -/
def readEscapedByte? : List Char → Option (UInt8 × List Char)
  | 'x' :: a :: b :: s => do
    let high ← hexValue? a
    let low ← hexValue? b
    some (UInt8.ofNat (high * 16 + low), s)
  | 't' :: s => some (9, s)
  | 'n' :: s => some (10, s)
  | 'r' :: s => some (13, s)
  | c :: s => some (UInt8.ofNat c.toNat, s)
  | [] => none

/-- The byte at the start of a literal's content, and the rest. -/
def readByte? : List Char → Option (UInt8 × List Char)
  | [] => none
  | c :: s => if c = '\\' then readEscapedByte? s else some (UInt8.ofNat c.toNat, s)

/-- The bytes that a literal's content shows, at most `steps` of them. -/
def readBytes : (steps : Nat) → List Char → Bytes
  | 0, _ => []
  | steps + 1, s =>
    match readByte? s with
    | none => []
    | some (b, s) => b :: readBytes steps s

/-- The byte string that a literal shows. -/
def unquoteBytes : List Char → Bytes
  | 'b' :: _ :: s => readBytes s.length s.dropLast
  | _ => []

theorem ofNat_toNat_byte (b : UInt8) : UInt8.ofNat (Char.ofNat b.toNat).toNat = b := by
  have hvalid : (Char.ofNat b.toNat).toNat = b.toNat := by
    rw [Char.ofNat, dif_pos (Or.inl (by have := b.toNat_lt; omega))]
    rfl
  rw [hvalid, UInt8.ofNat_toNat]

theorem readByte?_shortEscape {b : UInt8} {e : List Char} (h : shortEscape? b.toNat = some e)
    (rest : List Char) : readByte? (e ++ rest) = some (b, rest) := by
  have hb : ∀ n : Nat, b.toNat = n → b = UInt8.ofNat n := by
    rintro n rfl
    exact UInt8.ofNat_toNat.symm
  unfold shortEscape? at h
  split at h
  · rename_i hn
    rw [hb 9 (beq_iff_eq.mp hn), ← Option.some.inj h]
    rfl
  · split at h
    · rename_i hn
      rw [hb 10 (beq_iff_eq.mp hn), ← Option.some.inj h]
      rfl
    · split at h
      · rename_i hn
        rw [hb 13 (beq_iff_eq.mp hn), ← Option.some.inj h]
        rfl
      · exact absurd h (by simp)

/-- A byte is read back. -/
theorem readByte?_quoteByte {quote : Char} (hquote : quote = '"' ∨ quote = '\'') (b : UInt8)
    (rest : List Char) : readByte? (quoteByte quote b ++ rest) = some (b, rest) := by
  have hchar := ofNat_toNat_byte b
  unfold quoteByte
  dsimp only
  split
  · -- What has a backslash before it is the backslash itself or a quote.
    rename_i hself
    have hc : Char.ofNat b.toNat = '"' ∨ Char.ofNat b.toNat = '\''
        ∨ Char.ofNat b.toNat = '\\' := by
      rcases Bool.or_eq_true_iff.mp hself with hq | hq
      · rw [beq_iff_eq.mp hq]
        exact hquote.imp_right Or.inl
      · exact Or.inr (Or.inr (beq_iff_eq.mp hq))
    rcases hc with hc | hc | hc <;> rw [hc] at hchar ⊢ <;> rw [← hchar] <;> rfl
  · rename_i hself
    split
    · rename_i e hshort
      exact readByte?_shortEscape hshort rest
    · split
      · have hplain : Char.ofNat b.toNat ≠ '\\' := by
          intro heq
          rw [heq] at hself
          exact hself (by simp)
        -- A byte that stands for itself does not start an escape.
        rw [List.singleton_append, readByte?, if_neg hplain, hchar]
      · have hmod : ∀ m : Nat, m % 16 < 16 := fun m => Nat.mod_lt m (by decide)
        have hlt := b.toNat_lt
        simp only [hexDigits, List.nil_append, List.cons_append, readByte?, if_true,
          readEscapedByte?, hexValue?_digitChar (hmod _), Option.bind_eq_bind, Option.bind_some]
        rw [show b.toNat / 16 % 16 * 16 + b.toNat % 16 = b.toNat by omega, UInt8.ofNat_toNat]

/-- The content of a literal is read back. -/
theorem readBytes_quoted {quote : Char} (hquote : quote = '"' ∨ quote = '\'') (s : Bytes)
    {steps : Nat} (h : s.length ≤ steps) :
    readBytes steps (s.flatMap (quoteByte quote)) = s := by
  induction s generalizing steps with
  | nil => cases steps <;> rfl
  | cons b s ih =>
    -- Each byte takes one step, however many characters show it.
    obtain ⟨steps, rfl⟩ := Nat.exists_eq_succ_of_ne_zero (Nat.ne_of_gt (Nat.lt_of_lt_of_le
      (Nat.succ_pos _) h))
    rw [List.flatMap_cons, readBytes, readByte?_quoteByte hquote]
    exact congrArg _ (ih (Nat.le_of_succ_le_succ h))

/-- A byte string is read back. -/
theorem unquoteBytes_quoteBytes (s : Bytes) : unquoteBytes (quoteBytes s).toList = s := by
  rw [quoteBytes]
  have hquote : quoteFor (s.contains 39) (s.contains 34) = '"'
      ∨ quoteFor (s.contains 39) (s.contains 34) = '\'' := by
    unfold quoteFor
    split
    · exact Or.inl rfl
    · exact Or.inr rfl
  generalize quoteFor (s.contains 39) (s.contains 34) = quote at hquote ⊢
  -- A byte has a form of at least one character, so there are enough steps.
  have hne : ∀ b, quoteByte quote b ≠ [] := by
    intro b hnil
    have hread := readByte?_quoteByte hquote b []
    rw [hnil] at hread
    exact absurd hread (by simp [readByte?])
  have hle := length_le_flatMap hne s
  rw [String.toList_ofList, List.cons_append, List.cons_append, unquoteBytes, List.dropLast_concat,
    readBytes_quoted hquote]
  rw [List.length_append]
  omega

end Text

end TableStore
