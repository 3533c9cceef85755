import TableStore.Engine.Condition
import TableStore.Proofs.Except
import TableStore.Proofs.Store.Success

/-!
# Rows That Satisfy Conditions

A row is looked at by evaluating every condition of a clause, also after one of
them has failed. If a condition fails on a row the row can be left out without
being looked at, but then it is not noticed that another condition cannot be
evaluated on it. So two ways of choosing the rows to look at find the same rows
as long as both find any, and a fault in one of them comes from a limit or from
an operator that orders nothing.

## Main definitions

* `matchesOf`: The rows of a list that satisfy conditions.
* `Fault.IsUnknownOperator`: An operator orders nothing.
* `Refutes`: A row on which a condition fails.
* `SkipsRefuted`: A choice of rows that leaves out only such rows.

## Theorems

* `SkipsRefuted.filter_filter`: All such choices find the same rows.
* `matchesOf_error`: Why no rows are found.
-/

namespace TableStore

/-- An operator was asked to order values and orders nothing. -/
def Fault.IsUnknownOperator (fault : Fault) : Prop :=
  ∃ op, fault = .unknownOperator op

/-- The rows of a list that satisfy conditions. -/
def matchesOf (conditions : List Condition) :
    List (String × Row) → Except Fault (List (String × Row))
  | [] => .ok []
  | p :: rest => do
    let matched ← satisfies p.2 conditions
    let others ← matchesOf conditions rest
    .ok (if matched then p :: others else others)

/-- Whether a row is known to satisfy conditions. -/
def isMatch (conditions : List Condition) (p : String × Row) : Bool :=
  satisfies p.2 conditions == .ok true

/-- A row on which a condition fails. -/
def Refutes (row : Row) (conditions : List Condition) : Prop :=
  ∃ condition ∈ conditions,
    condition.operator.holds (Row.value row condition.column) condition.value = .ok false

/-- A choice of rows that leaves out only rows on which a condition fails. -/
def SkipsRefuted (conditions : List Condition) (rows : List (String × Row))
    (keep : String × Row → Bool) : Prop :=
  ∀ p ∈ rows, keep p = false → Refutes p.2 conditions

variable {conditions : List Condition} {rows found found' : List (String × Row)}

theorem eq_false_of_refutes {row : Row} (h : Refutes row conditions) {matched : Bool}
    (hmatched : satisfies row conditions = .ok matched) : matched = false := by
  induction conditions generalizing matched with
  | nil =>
    rcases h with ⟨condition, hmem, -⟩
    exact absurd hmem (by simp)
  | cons first conditions ih =>
    rw [satisfies] at hmatched
    rcases exists_of_bind_eq_ok hmatched with ⟨here, hhere, hmatched⟩
    rcases exists_of_bind_eq_ok hmatched with ⟨others, hothers, hmatched⟩
    rw [← Except.ok.inj hmatched]
    -- All conditions have been evaluated, the one that fails among them.
    rcases h with ⟨condition, hmem, hfails⟩
    rcases List.mem_cons.mp hmem with rfl | hmem
    · rw [hhere] at hfails
      rw [Except.ok.inj hfails, Bool.false_and]
    · rw [ih ⟨condition, hmem, hfails⟩ hothers, Bool.and_false]

theorem isMatch_eq_false (p : String × Row) (h : Refutes p.2 conditions) :
    isMatch conditions p = false := by
  rw [isMatch, beq_eq_false_iff_ne]
  intro hok
  exact absurd (eq_false_of_refutes h hok) (by simp)

/-- What is found are the rows that are known to satisfy the conditions. -/
theorem eq_filter_of_matchesOf (h : matchesOf conditions rows = .ok found) :
    found = rows.filter (isMatch conditions) := by
  induction rows generalizing found with
  | nil => exact (Except.ok.inj h).symm
  | cons p rows ih =>
    rw [matchesOf] at h
    rcases exists_of_bind_eq_ok h with ⟨matched, hmatched, h⟩
    rcases exists_of_bind_eq_ok h with ⟨others, hothers, h⟩
    rw [← Except.ok.inj h, ih hothers]
    cases matched with
    | true => rw [if_pos rfl, List.filter_cons_of_pos (by rw [isMatch, hmatched]; rfl)]
    | false =>
      rw [if_neg Bool.false_ne_true, List.filter_cons_of_neg (by rw [isMatch, hmatched]; decide)]

/-- Conditions that ask for equality can be evaluated on every row. -/
theorem exists_satisfies (hequal : ∀ condition ∈ conditions, condition.operator = .equal)
    (row : Row) : ∃ matched, satisfies row conditions = .ok matched := by
  induction conditions with
  | nil => exact ⟨true, rfl⟩
  | cons condition conditions ih =>
    rcases ih fun other hother => hequal other (List.mem_cons_of_mem _ hother) with ⟨others, hothers⟩
    rw [satisfies, hequal condition List.mem_cons_self, ComparisonOperator.holds, ok_bind, hothers,
      ok_bind]
    exact ⟨_, rfl⟩

/-- Rows on which conditions can be evaluated can be looked at. -/
theorem exists_matchesOf (h : ∀ p ∈ rows, ∃ matched, satisfies p.2 conditions = .ok matched) :
    ∃ found, matchesOf conditions rows = .ok found := by
  induction rows with
  | nil => exact ⟨[], rfl⟩
  | cons p rows ih =>
    rcases h p List.mem_cons_self with ⟨matched, hmatched⟩
    rcases ih fun q hq => h q (List.mem_cons_of_mem p hq) with ⟨others, hothers⟩
    rw [matchesOf, hmatched, ok_bind, hothers, ok_bind]
    exact ⟨_, rfl⟩

/-- A part of the rows can be looked at if all of them can. -/
theorem matchesOf_filter (keep : String × Row → Bool) (h : matchesOf conditions rows = .ok found) :
    ∃ part, matchesOf conditions (rows.filter keep) = .ok part := by
  induction rows generalizing found with
  | nil => exact ⟨[], rfl⟩
  | cons p rows ih =>
    rw [matchesOf] at h
    rcases exists_of_bind_eq_ok h with ⟨matched, hmatched, h⟩
    rcases exists_of_bind_eq_ok h with ⟨others, hothers, -⟩
    rcases ih hothers with ⟨part, hpart⟩
    by_cases hkeep : keep p = true
    · rw [List.filter_cons_of_pos hkeep, matchesOf, hmatched, ok_bind, hpart]
      exact ⟨_, rfl⟩
    · rw [List.filter_cons_of_neg hkeep]
      exact ⟨part, hpart⟩

/-- A choice that leaves out only rows on which a condition fails keeps all rows
    that satisfy the conditions. -/
theorem SkipsRefuted.filter_filter {keep : String × Row → Bool}
    (h : SkipsRefuted conditions rows keep) :
    (rows.filter keep).filter (isMatch conditions) = rows.filter (isMatch conditions) := by
  rw [List.filter_filter]
  refine List.filter_congr fun p hp => ?_
  cases hkeep : keep p with
  | true => rw [Bool.and_true]
  | false => rw [Bool.and_false, isMatch_eq_false p (h p hp hkeep)]

/-- Without the rows that satisfy the conditions nothing is found. -/
theorem matchesOf_rest (h : matchesOf conditions rows = .ok found) :
    matchesOf conditions (rows.filter fun p => !isMatch conditions p) = .ok [] := by
  rcases matchesOf_filter (fun p => !isMatch conditions p) h with ⟨part, hpart⟩
  rw [hpart, eq_filter_of_matchesOf hpart, List.filter_filter]
  simp

theorem matchesOf_nil (rows : List (String × Row)) : matchesOf [] rows = .ok rows := by
  induction rows with
  | nil => rfl
  | cons p rows ih =>
    rw [matchesOf, satisfies, ok_bind, ih]
    rfl

theorem matchesLike_error {v pattern : Value} {fault : Fault}
    (h : matchesLike v pattern = .error fault) : fault.IsLimit := by
  rw [matchesLike] at h
  split at h
  · exact absurd h (by simp)
  · rw [Value.like] at h
    split at h
    · exact absurd h (by simp)
    · exact Or.inl (Except.error.inj h).symm

theorem ComparisonOperator.accepts_error {op : ComparisonOperator} {order : Ordering} {fault : Fault}
    (h : op.accepts order = .error fault) : fault.IsUnknownOperator := by
  cases op <;> first
    | exact ⟨_, (Except.error.inj h).symm⟩
    | cases h

/-- Why a comparison cannot be evaluated. -/
theorem ComparisonOperator.holds_error {op : ComparisonOperator} {v literal : Value} {fault : Fault}
    (h : op.holds v literal = .error fault) : fault.IsLimit ∨ fault.IsUnknownOperator := by
  unfold holds at h
  split at h
  · exact absurd h (by simp)
  · exact absurd h (by simp)
  · exact Or.inl (matchesLike_error h)
  · rcases bind_eq_error h with hlike | ⟨matched, -, h⟩
    · exact Or.inl (matchesLike_error hlike)
    · exact absurd h (by simp)
  · split at h
    · rename_i order _
      exact Or.inr (accepts_error h)
    · exact absurd h (by simp)

theorem satisfies_error {row : Row} {fault : Fault} (h : satisfies row conditions = .error fault) :
    fault.IsLimit ∨ fault.IsUnknownOperator := by
  induction conditions with
  | nil => exact absurd h (by simp [satisfies])
  | cons condition conditions ih =>
    rw [satisfies] at h
    rcases bind_eq_error h with hhere | ⟨here, -, h⟩
    · exact ComparisonOperator.holds_error hhere
    · rcases bind_eq_error h with hothers | ⟨others, -, h⟩
      · exact ih hothers
      · exact absurd h (by simp)

/-- Why no rows are found. -/
theorem matchesOf_error {fault : Fault} (h : matchesOf conditions rows = .error fault) :
    fault.IsLimit ∨ fault.IsUnknownOperator := by
  induction rows with
  | nil => exact absurd h (by simp [matchesOf])
  | cons p rows ih =>
    rw [matchesOf] at h
    rcases bind_eq_error h with hmatched | ⟨matched, -, h⟩
    · exact satisfies_error hmatched
    · rcases bind_eq_error h with hothers | ⟨others, -, h⟩
      · exact ih hothers
      · exact absurd h (by simp)

end TableStore
