import TableStore.Proofs.Engine.Comparison

/-!
# Where Unknown Operators Are Met

An operator that orders nothing is met when a condition is evaluated on a row,
and nowhere else: what is done with the rows that were found can fail in many
ways, but not in this one. Since all rows are found before the first of them is
changed, a statement that fails in this way leaves the store as it is.

Apart from limits, two plain forms of a statement can therefore differ only
where one of them meets such an operator and the other does not. A full scan
looks at all rows, so it meets one whenever any other way of finding rows does.

## Main definitions

* `MeetSame`: Outcomes that agree on the unknown operators that are met.
* `Discipline.knowing`: Dialogues that meet no unknown operator.

## Theorems

* `Statement.plainly_unchanged`: Meeting an unknown operator changes nothing.
* `Statement.plainly_agree`: When plain forms are the same.
* `Statement.plainly_agree_scan`: When they are the same as that of a full scan.
-/

namespace TableStore

open Access

variable {schema : StoredSchema} {layout : KeyLayout} {w : World} {fault : Fault}

/-- Outcomes that agree on the unknown operators that are met. -/
def MeetSame {α : Type} (r r' : Except Fault α) : Prop :=
  ∀ fault : Fault, fault.IsUnknownOperator → (r = .error fault ↔ r' = .error fault)

theorem MeetSame.of_eq {α : Type} {r r' : Except Fault α} (h : r = r') : MeetSame r r' :=
  fun _ _ => by rw [h]

theorem not_unknown_typeMismatch (column expected : String) (v : Value) :
    ¬(typeMismatch column expected v).IsUnknownOperator := by
  rintro ⟨op, h⟩
  rw [typeMismatch] at h
  split at h <;> exact absurd h (by simp)

theorem Value.not_unknown_coerceTo {type : ColumnType} {column : String} {v : Value}
    (h : v.coerceTo type column = .error fault) : ¬fault.IsUnknownOperator := by
  rw [coerceTo.eq_def] at h
  dsimp only at h
  split at h
  case h_2 =>
    split at h
    · exact absurd h (by simp)
    · rw [← Except.error.inj h]
      exact not_unknown_typeMismatch _ _ _
  case h_4 =>
    split at h
    · exact absurd h (by simp)
    · rintro ⟨op, hop⟩
      exact absurd ((Except.error.inj h).trans hop) (by simp)
  case h_9 =>
    rw [← Except.error.inj h]
    exact not_unknown_typeMismatch _ _ _
  all_goals exact absurd h (by simp)

theorem StoredColumn.not_unknown_coerce {column : StoredColumn} {v : Value}
    (h : column.coerce v = .error fault) : ¬fault.IsUnknownOperator := by
  rw [coerce] at h
  split at h
  · rw [Value.coerce.eq_def] at h
    split at h
    · exact absurd h (by simp)
    · split at h
      · exact Value.not_unknown_coerceTo h
      · exact absurd h (by simp)
  · exact absurd h (by simp)

theorem Arithmetic.not_unknown_operand {n : Int} (h : operand n = .error fault) :
    ¬fault.IsUnknownOperator := by
  rintro ⟨op, rfl⟩
  rw [operand] at h
  split at h <;> exact absurd h (by simp)

theorem Arithmetic.not_unknown_compute {op : Arithmetic} {a b : Value}
    (h : op.compute a b = .error fault) : ¬fault.IsUnknownOperator := by
  rw [compute.eq_def] at h
  split at h
  case h_3 | h_4 | h_5 =>
    rcases bind_eq_error h with herror | ⟨d, -, hok⟩
    · exact not_unknown_operand herror
    · exact absurd hok (by simp)
  case h_7 =>
    rintro ⟨symbol, rfl⟩
    exact absurd h (by simp)
  all_goals exact absurd h (by simp)

theorem Assignment.not_unknown_apply {assignment : Assignment} {current : Value}
    (h : assignment.apply current = .error fault) : ¬fault.IsUnknownOperator := by
  rw [apply] at h
  split at h
  · exact absurd h (by simp)
  · split at h
    case h_4 =>
      rw [← Except.error.inj h]
      exact not_unknown_typeMismatch _ _ _
    all_goals exact Arithmetic.not_unknown_compute h

theorem not_unknown_assignRow {old row : Row} {assignments : List Assignment}
    (h : assignRow schema old row assignments = .error fault) : ¬fault.IsUnknownOperator := by
  induction assignments generalizing row with
  | nil => exact absurd h (by simp [assignRow])
  | cons assignment assignments ih =>
    rw [assignRow] at h
    split at h
    · rintro ⟨op, rfl⟩
      exact absurd h (by simp)
    · rcases bind_eq_error h with happly | ⟨v, -, h⟩
      · exact Assignment.not_unknown_apply happly
      · rcases bind_eq_error h with hcoerce | ⟨v', -, h⟩
        · exact StoredColumn.not_unknown_coerce hcoerce
        · exact ih h

/-- Dialogues that meet no unknown operator, whatever they find and change. -/
def Discipline.knowing : Discipline where
  meets _ _ := True
  puts _ _ := True
  deletes _ := True
  fails fault := ¬fault.IsUnknownOperator

/-- The outcome of a dialogue that meets no unknown operator. -/
theorem Access.Obeys.not_unknown {α : Type} {x : Access α} {post : α → Prop}
    (hx : x.Obeys Discipline.knowing post) (h : (x.on w).1 = .error fault) :
    ¬fault.IsUnknownOperator :=
  (hx.run (fun _ => True) (fun _ _ _ _ _ => trivial) (fun _ _ _ _ _ => trivial)
    (fun _ _ _ _ => trivial) w trivial).2.2 fault h

theorem Access.knowing_lift {α : Type} {r : Except Fault α}
    (h : ∀ fault, r = .error fault → ¬fault.IsUnknownOperator) :
    (lift r).Obeys Discipline.knowing fun _ => True :=
  obeys_lift (fun _ _ => trivial) h

theorem RowId.not_unknown_toKey {id : Value} (h : toKey id = .error fault) :
    ¬fault.IsUnknownOperator := by
  rintro ⟨op, rfl⟩
  rw [toKey.eq_def] at h
  split at h <;> exact absurd h (by simp)

theorem KeyLayout.not_unknown_rowKey? {table : String} {id : Bytes}
    (h : layout.rowKey? table id = .error fault) : ¬fault.IsUnknownOperator := by
  rintro ⟨op, hop⟩
  exact absurd ((Key.ofComponents_error h).symm.trans hop) (by simp)

theorem Row.not_unknown_toBytes {row : Row} (h : row.toBytes = .error fault) :
    ¬fault.IsUnknownOperator := by
  rintro ⟨op, hop⟩
  exact absurd ((toBytes_error h).symm.trans hop) (by simp)

namespace Engine

/-- No entry is moved without an index. -/
theorem knowing_moveEntries (table : String) (old new : Row) (id : Value) :
    ((Engine.mk layout false).moveEntries table old new id []).Obeys Discipline.knowing
      fun _ => True :=
  obeys_pure trivial

theorem knowing_updateRows (table : String) (assignments : List Assignment)
    (found : List (Value × Row)) :
    ((Engine.mk layout false).updateRows table schema assignments [] found).Obeys
      Discipline.knowing fun _ => True := by
  induction found with
  | nil => exact obeys_pure trivial
  | cons p found ih =>
    rcases p with ⟨id, old⟩
    rw [updateRows]
    refine (knowing_lift fun _ h => not_unknown_assignRow h).bind fun row _ => ?_
    refine (knowing_moveEntries table old row id).bind fun _ _ => ?_
    refine (knowing_lift fun _ h => RowId.not_unknown_toKey h).bind fun id _ => ?_
    refine (knowing_lift fun _ h => KeyLayout.not_unknown_rowKey? h).bind fun key _ => ?_
    refine (knowing_lift fun _ h => Row.not_unknown_toBytes h).bind fun data _ => ?_
    refine (obeys_store trivial).bind fun _ _ => ?_
    exact ih.bind fun n _ => obeys_pure trivial

theorem knowing_deleteRows (table : String) (found : List (Value × Row)) :
    ((Engine.mk layout false).deleteRows table [] found).Obeys Discipline.knowing
      fun _ => True := by
  induction found with
  | nil => exact obeys_pure trivial
  | cons p found ih =>
    rcases p with ⟨id, row⟩
    rw [deleteRows]
    refine (knowing_moveEntries table row [] id).bind fun _ _ => ?_
    refine (knowing_lift fun _ h => RowId.not_unknown_toKey h).bind fun id _ => ?_
    refine (knowing_lift fun _ h => KeyLayout.not_unknown_rowKey? h).bind fun key _ => ?_
    refine (obeys_remove trivial).bind fun _ _ => ?_
    exact ih.bind fun n _ => obeys_pure trivial

end Engine

namespace Statement

/-- What is done with the rows that were found meets no unknown operator. -/
theorem knowing_withFound (found : List (Value × Row)) (statement : Statement) :
    (statement.withFound layout schema found).Obeys Discipline.knowing fun _ => True := by
  cases statement with
  | select table items conditions order limit offset =>
    dsimp only [withFound]
    split
    · refine (knowing_lift fun fault h => ?_).bind fun rows _ => obeys_pure trivial
      rintro ⟨op, rfl⟩
      rw [projectColumns] at h
      split at h <;> exact absurd h (by simp)
    · exact obeys_pure trivial
  | update table assignments conditions =>
    exact (Engine.knowing_updateRows table assignments found).bind fun n _ => obeys_pure trivial
  | delete table conditions =>
    exact (Engine.knowing_deleteRows table found).bind fun n _ => obeys_pure trivial
  | _ => exact obeys_pure trivial

/-- Meeting an unknown operator changes nothing. -/
theorem plainly_unchanged {find : List Condition → Except Fault (List (Value × Row))}
    {statement : Statement} (h : ((statement.plainly layout schema find).on w).1 = .error fault)
    (hunknown : fault.IsUnknownOperator) :
    (statement.plainly layout schema find).on w = (.error fault, w) := by
  rw [plainly] at h ⊢
  rcases hbound : statement.boundConditions schema with other | conditions
  · rw [hbound] at h
    rw [← Except.error.inj h]
    rfl
  · rw [hbound, lift_ok_bind] at h
    rw [lift_ok_bind]
    rcases hfound : find conditions with other | found
    · rw [hfound] at h
      rw [← Except.error.inj h]
      rfl
    · rw [hfound, lift_ok_bind] at h
      exact absurd hunknown ((knowing_withFound found statement).not_unknown h)

section

variable {rows : List (String × Row)} {statement : Statement}
  {find find' : List Condition → Except Fault (List (Value × Row))}

theorem plainly_not_found {conditions : List Condition}
    (hbound : statement.boundConditions schema = .ok conditions)
    (hfind : find conditions = .error fault) :
    (statement.plainly layout schema find).on w = (.error fault, w) := by
  rw [plainly, hbound, lift_ok_bind, hfind]
  rfl

/-- A search that fails for no limit has met an unknown operator, and so the
    statement fails. -/
theorem plainly_unknown (hfind : FindsAlways rows find)
    (hlimit : WithinLimits ((statement.plainly layout schema find).on w).1)
    {conditions : List Condition} (hbound : statement.boundConditions schema = .ok conditions)
    (hfound : find conditions = .error fault) :
    fault.IsUnknownOperator ∧ (statement.plainly layout schema find).on w = (.error fault, w) := by
  have hrun := @plainly_not_found schema layout w fault statement find conditions hbound hfound
  refine ⟨((hfind conditions).error hfound).resolve_left fun hfault => ?_, hrun⟩
  exact absurd hfault (hlimit fault (by rw [hrun]))

/-- When plain forms are the same. -/
theorem plainly_agree (hfind : FindsAlways rows find) (hfind' : FindsAlways rows find')
    (hlimit : WithinLimits ((statement.plainly layout schema find).on w).1)
    (hlimit' : WithinLimits ((statement.plainly layout schema find').on w).1)
    (hsame : MeetSame ((statement.plainly layout schema find).on w).1
      ((statement.plainly layout schema find').on w).1) :
    (statement.plainly layout schema find).on w = (statement.plainly layout schema find').on w := by
  rcases hbound : statement.boundConditions schema with fault | conditions
  · rw [plainly, plainly, hbound, lift_error_bind, lift_error_bind]
  · rcases hfound : find conditions with fault | found
    · rcases plainly_unknown hfind hlimit hbound hfound with ⟨hunknown, hrun⟩
      have hrun' := (hsame fault hunknown).mp (by rw [hrun])
      rw [hrun, plainly_unchanged hrun' hunknown]
    · rcases hfound' : find' conditions with fault | found'
      · rcases plainly_unknown hfind' hlimit' hbound hfound' with ⟨hunknown, hrun'⟩
        have hrun := (hsame fault hunknown).mpr (by rw [hrun'])
        rw [hrun', plainly_unchanged hrun hunknown]
      · rw [plainly, plainly, hbound, lift_ok_bind, lift_ok_bind, hfound, hfound',
          (hfind conditions).agree (hfind' conditions) hfound hfound']

/-- When plain forms are the same as that of a full scan. -/
theorem plainly_agree_scan (hfind : FindsAlways rows find)
    (hscan : ∀ conditions, find' conditions = (matchesOf conditions rows).map (List.map asFound))
    (hlimit : WithinLimits ((statement.plainly layout schema find).on w).1)
    (hlimit' : WithinLimits ((statement.plainly layout schema find').on w).1)
    (hmeets : ∀ fault : Fault, fault.IsUnknownOperator →
      ((statement.plainly layout schema find').on w).1 = .error fault →
      ((statement.plainly layout schema find).on w).1 = .error fault) :
    (statement.plainly layout schema find).on w = (statement.plainly layout schema find').on w := by
  rcases hbound : statement.boundConditions schema with fault | conditions
  · rw [plainly, plainly, hbound, lift_error_bind, lift_error_bind]
  · rcases hall : find' conditions with fault | found
    · have hfind' : FindsAlways rows find' := fun bound => hscan bound ▸ Finds.all bound rows
      rcases plainly_unknown hfind' hlimit' hbound hall with ⟨hunknown, hrun'⟩
      have hrun := hmeets fault hunknown (by rw [hrun'])
      rw [hrun', plainly_unchanged hrun hunknown]
    · rcases (hfind conditions).of_all ((hscan conditions).symm.trans hall) with
        ⟨fault, herror, hfault⟩ | hok
      · have hrun := @plainly_not_found schema layout w fault statement find conditions hbound herror
        exact absurd hfault (hlimit fault (by rw [hrun]))
      · rw [plainly, plainly, hbound, lift_ok_bind, lift_ok_bind, hok, hall]

end

end Statement

end TableStore
