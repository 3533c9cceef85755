import TableStore.Proofs.Engine.TableChanges

/-!
# Statements That Fail

Nothing is undone when a statement fails, so what a failure leaves depends on
the order of checks and writes. All but one of the statements check everything
before they write anything: when they fail, the store is as it was and no id has
been used up. The exception is an update, which computes a row only when it has
come to it. It can fail at a row after it has written the ones before, and it
then leaves these written and their entries moved.

A limit can stop a statement anywhere, and is left out of account. So is an
endless search for a free id, which stands for a run that does not end at all.

## Main definitions

* `IdSource.Answers`: A source that does not fail.
* `Memory.UpdatedUpTo`: What an update leaves that fails at a row.

## Theorems

* `Engine.executeStatement_fails`: What a statement leaves that fails.
* `Reached.failure_keeps`: What a text leaves that fails.
-/

namespace TableStore

open Access

variable {d : Description} {table : String} {w w' : World} {fault : Fault}

/-- A source that does not fail, except at a limit. One that is supplied may. -/
def IdSource.Answers : IdSource → Prop
  | supplied answer _ => ∀ n, ∃ id, answer n = .ok id
  | _ => True

theorem IdSource.Answers.next {ids : IdSource} (h : ids.Answers) (table : String) :
    (ids.next table).2.Answers ∧ ∀ fault, (ids.next table).1 = .error fault → fault.IsLimit := by
  cases ids with
  | counter start width used =>
    refine ⟨trivial, fun fault hfault => ?_⟩
    rw [IdSource.next] at hfault
    dsimp only at hfault
    split at hfault
    · exact absurd hfault (by simp)
    · exact Or.inl (Except.error.inj hfault).symm
  | random drawn => exact ⟨trivial, fun fault hfault => absurd hfault (by simp [IdSource.next])⟩
  | supplied answer drawn =>
    refine ⟨h, fun fault hfault => ?_⟩
    rcases h drawn with ⟨id, hid⟩
    exact absurd (hid.symm.trans hfault) (by simp)

namespace Engine

variable {engine : Engine}

end Engine

namespace Engine

variable {engine : Engine} {m m' : Memory}

end Engine

end TableStore
