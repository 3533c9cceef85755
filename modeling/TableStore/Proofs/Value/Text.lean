import TableStore.Proofs.Text.Quoted
import TableStore.Proofs.Value.ColumnType

/-!
# Different Values With One Text

A row is filed under the text of its key, so a key is taken as soon as a row has
its text as an id. This is the same as that a row has the key, if no other value
has the text. Now a text can be the text of anything, `1` that of a number and
`None` that of null. But this is all: the texts of values that are no texts
themselves are told apart. The words are few, a number is read back as JSON, and
what is left is a literal of bytes.

A column of a checked type holds values of one kind, so there no two values have
one text.

## Main definitions

* `Value.spelled?`: The value that is no text and has a text.
* `Value.SpelledAlike`: A text, and another value that is written like it.

## Theorems

* `Value.spelled?_toText`: A value that is no text is told by its text.
* `Value.eq_or_spelledAlike`: Values with one text.
* `Value.SpelledAlike.not_holds`: No column of a checked type holds both.
-/

namespace TableStore

namespace Value

/-- The values that are written as words. -/
def words : Members Value :=
  [("None", null), ("True", bool true), ("False", bool false), ("inf", float (.infinite false)),
    ("-inf", float (.infinite true)), ("nan", float .nan)]

/-- The value that has a text, among the values that are no texts and within the
    digit limit. -/
def spelled? (s : String) : Option Value :=
  match readJsonNumber s.toList with
  | .ok (j, _) => some (ofPlain j)
  | .error .digitLimit => none
  | .error _ => some ((Members.get? words s).getD (bytes (Text.unquoteBytes s.toList)))

/-- A literal of bytes is neither a number nor a word. -/
theorem spelled?_bytes (b : Bytes) : spelled? (bytes b).toText = some (bytes b) := by
  have hback := Text.unquoteBytes_quoteBytes b
  obtain ⟨rest, hrest⟩ : ∃ rest, (Text.quoteBytes b).toList = 'b' :: rest :=
    ⟨_, by rw [Text.quoteBytes, String.toList_ofList, List.cons_append]⟩
  -- The text starts with the letter b, so it is no number and none of the words.
  have hread : readJsonNumber (Text.quoteBytes b).toList = .error .malformedJson := by
    rw [hrest]
    rfl
  have hword : Members.get? words (Text.quoteBytes b) = none := by
    rcases hget : Members.get? words (Text.quoteBytes b) with _ | v
    · rfl
    · have hwords : ∀ word ∈ words, word.1.toList.head? ≠ some 'b' := by decide
      have hmem := hwords _ (Members.mem_of_get? hget)
      rw [hrest] at hmem
      exact absurd rfl hmem
  rw [toText, spelled?, hread]
  dsimp only
  rw [hword, Option.getD_none, hback]

/-- A value that is no text is told by its text. -/
theorem spelled?_toText {v : Value} (hv : v.IsScalar) (htext : ∀ s, v ≠ text s) :
    spelled? v.toText = if v.hasText then some v else none := by
  cases v with
  | null => rfl
  | bool b => cases b <;> rfl
  | int n =>
    have hread := readJsonNumber_toString n numberEnds_nil
    rw [List.append_nil] at hread
    rw [toText, spelled?, hread, hasText]
    by_cases hlimit : Text.withinDigitLimit n = true
    · rw [if_pos hlimit, if_pos hlimit]
      rfl
    · rw [if_neg hlimit, if_neg hlimit]
  | float d =>
    cases d with
    | finite negative rank =>
      have hread := readJsonNumber_finite negative rank "inf" "nan" numberEnds_nil
      rw [List.append_nil] at hread
      rw [toText, spelled?, Double.text, hread]
      rfl
    | infinite negative => cases negative <;> rfl
    | nan => rfl
  | text s => exact absurd rfl (htext s)
  | bytes b => exact spelled?_bytes b
  | array items => exact absurd hv id
  | object members => exact absurd hv id

/-- A text, and a value of another kind that is written like it. -/
inductive SpelledAlike : Value → Value → Prop where
  | toText {v : Value} (h : ∀ s, v ≠ text s) : SpelledAlike v (text v.toText)
  | ofText {v : Value} (h : ∀ s, v ≠ text s) : SpelledAlike (text v.toText) v

/-- Values with one text are the same, or one of them is that text. -/
theorem eq_or_spelledAlike {a b : Value} (ha : a.IsScalar) (hb : b.IsScalar)
    (hlimit : b.hasText = true) (h : a.toText = b.toText) : a = b ∨ a.SpelledAlike b := by
  by_cases htext : ∃ s, a = text s
  · rcases htext with ⟨s, rfl⟩
    obtain rfl : s = b.toText := h
    by_cases htext' : ∃ t, b = text t
    · rcases htext' with ⟨t, rfl⟩
      exact Or.inl rfl
    · exact Or.inr (.ofText fun s hs => htext' ⟨s, hs⟩)
  · have ha' : ∀ s, a ≠ text s := fun s hs => htext ⟨s, hs⟩
    by_cases htext' : ∃ t, b = text t
    · rcases htext' with ⟨t, rfl⟩
      obtain rfl : a.toText = t := h
      exact Or.inr (.toText ha')
    · have hspelled := spelled?_toText hb fun s hs => htext' ⟨s, hs⟩
      -- Neither is a text, so both are what the text they share is read as.
      rw [← h, spelled?_toText ha ha', if_pos hlimit] at hspelled
      split at hspelled
      · exact Or.inl (Option.some.inj hspelled)
      · exact absurd hspelled (by simp)

/-- No column of a checked type holds both of them. -/
theorem SpelledAlike.not_holds {a b : Value} (h : a.SpelledAlike b) (ha : a.isNull = false)
    (hb : b.isNull = false) {type : ColumnType} (hholds : type.Holds a) : ¬type.Holds b := by
  -- The type of the text holds nothing but texts.
  have htext : ∀ {s v}, type.Holds (text s) → type.Holds v → v.isNull = false → ∃ t, v = text t := by
    intro s v hs hv hnull
    have htype : type = .text := by
      cases type with
      | text => rfl
      | _ => rcases hs with hs | ⟨_, hs⟩ <;> cases hs
    subst htype
    rcases hv with rfl | hv
    · exact absurd hnull (by simp [isNull])
    · exact hv
  intro hholds'
  cases h with
  | toText hv =>
    rcases htext hholds' hholds ha with ⟨t, ht⟩
    exact hv t ht
  | ofText hv =>
    rcases htext hholds hholds' hb with ⟨t, ht⟩
    exact hv t ht

end Value

end TableStore
