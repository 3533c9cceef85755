import TableStore.Proofs.Engine.Reached
import TableStore.Proofs.Engine.Signature

/-!
# What Has Been Executed

Whether the rows of a table bear their ids is not decided by the tables that
there are. A table that declares a column of the name that ids are kept under
lets them be assigned, but it does no harm as long as nobody does so, and it
does none to other tables. So here a run is described by all of its texts, not
by what has become of them. A text counts even if it failed, because an update
that fails half way has assigned ids as well. What was done to a table of the
same name that has since been dropped does not count.

## Main definitions

* `History`: The texts of a run with their outcomes.
* `History.keepsIds`: A history in which no ids of a table were assigned.
* `Executed`: The history and the store after any number of texts.

## Theorems

* `Executed.reached`: The tables of a history are those of the run.
* `Executed.signs`: When all rows of a table bear their id.
-/

namespace TableStore

open Access

/-- The texts that have been executed with their outcomes, the latest first. -/
abbrev History :=
  List (Option String × Except Fault QueryResult)

namespace History

/-- The declared tables after a history. -/
def tables : History → Tables
  | [] => fun _ => none
  | (sql, r) :: earlier => (tables earlier).afterText sql r

end History

instance (schema : TableSchema) : DecidablePred (Statement.AssignsIds schema)
  | .update _ _ _ => inferInstanceAs (Decidable (_ ∧ _ ∧ _))
  | .createTable _ _ _ _ => isFalse id
  | .dropTable _ _ => isFalse id
  | .createIndex _ _ _ _ => isFalse id
  | .dropIndex _ _ _ => isFalse id
  | .insert _ _ _ => isFalse id
  | .select _ _ _ _ _ _ => isFalse id
  | .delete _ _ => isFalse id

/-- A text that does not assign ids of a table with a schema. -/
def sparesIds (table : String) (schema : TableSchema) (sql : Option String) : Bool :=
  match Statement.ofText sql with
  | .ok statement => decide (statement.table = table → ¬statement.AssignsIds schema)
  | .error _ => true

/-- A history in which no text has assigned ids of a table since the table was
    declared. -/
def History.keepsIds (table : String) : History → Bool
  | [] => true
  | (sql, _) :: earlier =>
    match tables earlier table with
    | none => true
    | some schema => sparesIds table schema sql && keepsIds table earlier

/-- The history and the store that texts lead to, from a store without any key
    under the root. -/
inductive Executed (layout : KeyLayout) : History → Memory → Prop where
  | start {m : Memory} (ascending : Ascending m.entries)
      (free : ∀ entry ∈ m.entries, Bytes.carries layout.root entry.1 = false) : Executed layout [] m
  | call {history : History} {m : Memory} (h : Executed layout history m) (useIndexes : Bool)
      (sql : Option String) (ids : IdSource) (notes : List String) :
      Executed layout
        ((sql, ((Engine.mk layout useIndexes).call sql ⟨m, ids, notes⟩).1) :: history)
        ((Engine.mk layout useIndexes).call sql ⟨m, ids, notes⟩).2.store

namespace Executed

variable {layout : KeyLayout} {history : History} {m : Memory} {table : String}
  {schema : TableSchema}

/-- The tables of a history are those that a run without restrictions ends
    with. -/
theorem reached (h : Executed layout history m) :
    Reached layout (fun _ _ => True) history.tables m := by
  induction h with
  | start ascending free => exact .start ascending free
  | call h useIndexes sql ids notes ih => exact ih.call useIndexes sql ids notes trivial

/-- All rows of a table bear their id if no text has assigned ids of it. -/
theorem signs (h : Executed layout history m) (ht : history.tables table = some schema)
    (hkeeps : history.keepsIds table = true) {c : Contents} (hm : m.entries = c.entries) :
    c.SignsRows layout table schema := by
  induction h generalizing schema c with
  | start ascending free => exact absurd ht (by simp [History.tables])
  | @call history m h useIndexes sql ids notes ih =>
    rcases h.reached.described with ⟨d, before, htables, hbefore, hd⟩
    -- If the table was there before, nothing has been assigned before either.
    have hearlier : ∀ declared, history.tables table = some declared →
        sparesIds table declared sql = true ∧ history.keepsIds table = true := by
      intro declared hdeclared
      rw [History.keepsIds, hdeclared] at hkeeps
      exact Bool.and_eq_true_iff.mp hkeeps
    rcases ((Engine.mk layout useIndexes).execute sql).run_contents hbefore ids notes with
      ⟨hout, hshows⟩
    have hc : c = (((Engine.mk layout useIndexes).execute sql).on ⟨before, ids, notes⟩).2.store :=
      Contents.ext_get? fun key => congrArg (lookupEntry key) (hm.symm.trans hshows.entries)
    rw [History.tables, Tables.afterText, Engine.call, hout, Engine.execute] at ht
    rw [hc, Engine.execute]
    rcases hread : Statement.ofText sql with fault | statement
    · rw [hread] at ht
      exact ih ht (hearlier schema ht).2 hbefore
    · rw [hread, lift_ok_bind, ← htables] at ht
      rw [lift_ok_bind]
      have hplain := Statement.plain_of_ofText hread
      refine Engine.executeStatement_signs hd hplain ht fun hdeclared => ?_
      rw [htables] at hdeclared
      rcases hearlier schema hdeclared with ⟨hspares, hkept⟩
      rw [sparesIds, hread] at hspares
      exact ⟨ih hdeclared hkept hbefore, of_decide_eq_true hspares⟩

/-- The history of several texts that one engine executes. -/
theorem calls (h : Executed layout history m) (useIndexes : Bool) (texts : List (Option String))
    (ids : IdSource) (notes : List String) :
    Executed layout
      ((texts.zip ((Engine.mk layout useIndexes).calls texts ⟨m, ids, notes⟩).1).reverse ++ history)
      ((Engine.mk layout useIndexes).calls texts ⟨m, ids, notes⟩).2.store := by
  induction texts generalizing history m ids notes with
  | nil => exact h
  | cons sql texts ih =>
    rw [Engine.calls, List.zip_cons_cons, List.reverse_cons, List.append_assoc]
    exact ih (h.call useIndexes sql ids notes) _ _

end Executed

/-- The history of a run on an empty store. -/
def freshHistory (texts : List (Option String)) : History :=
  (texts.zip (freshRun texts).1).reverse

theorem executed_freshRun (texts : List (Option String)) :
    Executed defaultLayout (freshHistory texts) (freshRun texts).2.store := by
  have hstart : Executed defaultLayout [] Memory.empty :=
    .start List.Pairwise.nil fun _ h => absurd h List.not_mem_nil
  rw [freshHistory, ← List.append_nil (List.reverse _)]
  exact hstart.calls true texts _ _

end TableStore
