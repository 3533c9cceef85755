import TableStore.Proofs.Row
import TableStore.Value.ColumnType

/-!
# Coerced Values Fit Their Column

Coercion settles the form in which a column stores a value, so it has nothing
left to do for a value that it gave. What it gives is null or of the kind that
the column's type is for; this is the sense in which a stored value is well
typed.

## Main definitions

* `ColumnType.Holds`: The values of a type.

## Theorems

* `Value.coerce_coerce`: A coerced value is left alone.
* `Value.tryCoerce_of_coerce`: What is stored and what is looked for.
* `Value.holds_of_coerce`: A coerced value is of the type of its column.
* `Value.isNull_of_coerce`: Only null is coerced to null.
-/

namespace TableStore

/-- The values of a type: null and the values of one kind. -/
def ColumnType.Holds (type : ColumnType) (v : Value) : Prop :=
  v = .null ∨ match type with
    | integer => ∃ n, v = .int n
    | text => ∃ s, v = .text s
    | float => ∃ d, v = .float d
    | boolean => ∃ b, v = .bool b
    | blob => ∃ b, v = .bytes b

namespace Value

theorem coerceTo_holds {type : ColumnType} {column : String} {v v' : Value}
    (h : v.coerceTo type column = .ok v') : type.Holds v' := by
  right
  cases type <;> cases v <;> simp only [coerceTo, reduceCtorEq, Except.ok.injEq] at h
  case integer.float d =>
    split at h
    · exact ⟨_, (Except.ok.inj h).symm⟩
    · exact absurd h (by simp)
  case float.int n =>
    split at h
    · exact ⟨_, (Except.ok.inj h).symm⟩
    · exact absurd h (by simp)
  all_goals exact ⟨_, h.symm⟩

theorem coerce_of_holds {typeName column : String} {type : ColumnType} {v : Value}
    (htype : ColumnType.ofName? typeName = some type) (h : type.Holds v) :
    v.coerce typeName column = .ok v := by
  rcases h with rfl | h
  · rfl
  · cases type <;> obtain ⟨a, rfl⟩ := h <;> simp only [coerce, htype, coerceTo]

/-- A coerced value is of the type of its column. -/
theorem holds_of_coerce {typeName column : String} {type : ColumnType} {v v' : Value}
    (htype : ColumnType.ofName? typeName = some type) (h : v.coerce typeName column = .ok v') :
    type.Holds v' := by
  unfold coerce at h
  split at h
  · exact Or.inl (Except.ok.inj h).symm
  · rw [htype] at h
    exact coerceTo_holds h

/-- A coerced value is left alone. -/
theorem coerce_coerce {typeName column : String} {v v' : Value}
    (h : v.coerce typeName column = .ok v') (column' : String) :
    v'.coerce typeName column' = .ok v' := by
  rcases htype : ColumnType.ofName? typeName with _ | type
  · unfold coerce
    split
    · rfl
    · rw [htype]
  · exact coerce_of_holds htype (holds_of_coerce htype h)

theorem coerceTo_rename {type : ColumnType} {column : String} {v v' : Value}
    (h : v.coerceTo type column = .ok v') (column' : String) : v.coerceTo type column' = .ok v' := by
  cases type <;> cases v
  case integer.float d =>
    simp only [coerceTo] at h ⊢
    cases hd : d.toInt? with
    | none =>
      rw [hd] at h
      exact absurd h (by simp)
    | some n =>
      rw [hd] at h
      exact h
  all_goals first
    | exact h
    | exact absurd h (by simp [coerceTo])

/-- The name of the column is for the message about a value that does not fit. -/
theorem coerce_rename {typeName column : String} {v v' : Value}
    (h : v.coerce typeName column = .ok v') (column' : String) :
    v.coerce typeName column' = .ok v' := by
  unfold coerce at h ⊢
  split at h
  · exact h
  · split at h
    · exact coerceTo_rename h column'
    · exact h

/-- A literal that a column takes is looked for in the form in which the column has
    taken it. -/
theorem tryCoerce_of_coerce {typeName column : String} {v v' : Value}
    (h : v.coerce typeName column = .ok v') : v.tryCoerce typeName = .ok v' := by
  rw [tryCoerce, coerce_rename h]

theorem isScalar_of_coerce {typeName column : String} {v v' : Value} (hv : v.IsScalar)
    (h : v.coerce typeName column = .ok v') : v'.IsScalar := by
  rcases htype : ColumnType.ofName? typeName with _ | type
  · unfold coerce at h
    split at h
    · rw [← Except.ok.inj h]
      trivial
    · rw [htype] at h
      rw [← Except.ok.inj h]
      exact hv
  · rcases holds_of_coerce htype h with rfl | h
    · trivial
    · cases type <;> obtain ⟨a, rfl⟩ := h <;> trivial

/-- A checked type leaves a value alone, or makes an integer, a finite float or bytes
    of it. -/
theorem coerceTo_cases {type : ColumnType} {column : String} {v v' : Value}
    (h : v.coerceTo type column = .ok v') :
    v' = v ∨ (∃ n, v' = int n) ∨ (∃ negative rank, v' = float (.finite negative rank))
      ∨ ∃ b, v' = bytes b := by
  cases type <;> cases v <;> simp only [coerceTo, reduceCtorEq, Except.ok.injEq] at h
  case integer.float d =>
    split at h
    · exact Or.inr (Or.inl ⟨_, (Except.ok.inj h).symm⟩)
    · exact absurd h (by simp)
  case float.int n =>
    split at h
    · rename_i d hd
      -- An integer that has a double has a finite one.
      unfold Double.ofInt? at hd
      split at hd
      · rw [← Option.some.inj hd] at h
        exact Or.inr (Or.inr (Or.inl ⟨_, _, (Except.ok.inj h).symm⟩))
      · exact absurd hd (by simp)
      · exact absurd hd (by simp)
    · exact absurd h (by simp)
  case blob.text s => exact Or.inr (Or.inr (Or.inr ⟨_, h.symm⟩))
  all_goals exact Or.inl h.symm

/-- Only null is coerced to null. -/
theorem isNull_of_coerce {typeName column : String} {v v' : Value} (hv : v.isNull = false)
    (h : v.coerce typeName column = .ok v') : v'.isNull = false := by
  unfold coerce at h
  split at h
  · exact absurd hv (by simp [isNull])
  · split at h
    · rcases coerceTo_cases h with rfl | ⟨_, rfl⟩ | ⟨_, _, rfl⟩ | ⟨_, rfl⟩
      · exact hv
      all_goals rfl
    · rw [← Except.ok.inj h]
      exact hv

theorem isNaN_of_coerce {typeName column : String} {v v' : Value} (hv : v.isNaN = false)
    (h : v.coerce typeName column = .ok v') : v'.isNaN = false := by
  unfold coerce at h
  split at h
  · rw [← Except.ok.inj h]
    rfl
  · split at h
    · rcases coerceTo_cases h with rfl | ⟨_, rfl⟩ | ⟨_, _, rfl⟩ | ⟨_, rfl⟩
      · exact hv
      all_goals rfl
    · rw [← Except.ok.inj h]
      exact hv

theorem isRegular_of_coerce {typeName column : String} {v v' : Value} (hv : v.IsRegular)
    (h : v.coerce typeName column = .ok v') : v'.IsRegular :=
  ⟨isScalar_of_coerce hv.scalar h, isNaN_of_coerce hv.ordered h⟩

end Value

end TableStore
