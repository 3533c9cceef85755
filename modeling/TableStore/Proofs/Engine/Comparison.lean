import TableStore.Engine.Execute
import TableStore.Proofs.Engine.Filing
import TableStore.Proofs.Statement

/-!
# Statements Without Their Indexes

A statement that queries, changes or removes rows comes down to three things:
the conditions that it has for the table, the rows that are found for them, and
what is done with these. Indexes have a part in the second, where they decide
which rows are looked at, and in the third, where they are kept up to date.

So a statement is compared with a plain form of it, in which the rows are given
by a function of the conditions and no index is touched. The statement follows
its plain form, for a function that finds what some plan finds. What two runs
have in common can then be read off the plain forms, which differ in the
function only.

## Main definitions

* `Statement.FindsRows`, `Statement.Manipulates`: The kinds of statements.
* `Statement.ReadAs`: Texts by the kind of their statement.
* `Statement.boundConditions`, `Statement.withFound`: The parts of a statement.
* `Statement.plainly`: The plain form of a statement.

## Theorems

* `Engine.executeStatement_follows`, `execute_follows`: A statement follows its
  plain form.
* `Engine.looks_missing`: A statement about a table that does not exist.
-/

namespace TableStore

open Access

variable {d : Description} {table : String} {v w : World}

namespace Statement

/-- The statements that find rows. -/
def FindsRows : Statement → Prop
  | select _ _ _ _ _ _ => True
  | update _ _ _ => True
  | delete _ _ => True
  | _ => False

/-- The statements that are about rows. -/
def Manipulates : Statement → Prop
  | insert _ _ _ => True
  | statement => statement.FindsRows

instance : DecidablePred FindsRows
  | select _ _ _ _ _ _ => isTrue trivial
  | update _ _ _ => isTrue trivial
  | delete _ _ => isTrue trivial
  | createTable _ _ _ _ => isFalse id
  | dropTable _ _ => isFalse id
  | createIndex _ _ _ _ => isFalse id
  | dropIndex _ _ _ => isFalse id
  | insert _ _ _ => isFalse id

instance : DecidablePred Manipulates
  | insert _ _ _ => isTrue trivial
  | select _ _ _ _ _ _ => isTrue trivial
  | update _ _ _ => isTrue trivial
  | delete _ _ => isTrue trivial
  | createTable _ _ _ _ => isFalse id
  | dropTable _ _ => isFalse id
  | createIndex _ _ _ _ => isFalse id
  | dropIndex _ _ _ => isFalse id

/-- The kinds of statements that find rows. -/
@[elab_as_elim]
theorem FindsRows.elim {motive : ∀ statement : Statement, statement.FindsRows → Prop}
    (select : ∀ table items conditions order limit offset,
      motive (.select table items conditions order limit offset) trivial)
    (update : ∀ table assignments conditions,
      motive (.update table assignments conditions) trivial)
    (delete : ∀ table conditions, motive (.delete table conditions) trivial)
    (statement : Statement) (h : statement.FindsRows) : motive statement h := by
  cases statement with
  | createTable table columns primaryKey ifNotExists => exact absurd h id
  | dropTable table ifExists => exact absurd h id
  | createIndex index table column ifNotExists => exact absurd h id
  | dropIndex index table ifExists => exact absurd h id
  | insert table columns values => exact absurd h id
  | select table items conditions order limit offset =>
    exact select table items conditions order limit offset
  | update table assignments conditions => exact update table assignments conditions
  | delete table conditions => exact delete table conditions

/-- A statement about rows adds one, or it finds rows. -/
theorem Manipulates.insert_or_findsRows {statement : Statement} (h : statement.Manipulates) :
    (∃ table columns values, statement = .insert table columns values) ∨ statement.FindsRows := by
  cases statement with
  | insert table columns values => exact Or.inl ⟨table, columns, values, rfl⟩
  | _ => exact Or.inr h

theorem FindsRows.manipulates {statement : Statement} (h : statement.FindsRows) :
    statement.Manipulates := by
  cases statement with
  | insert table columns values => trivial
  | _ => exact h

/-- A text whose statement is of a kind, if it is a statement. -/
def ReadAs (kind : Statement → Prop) (sql : Option String) : Prop :=
  ∀ statement, ofText sql = .ok statement → kind statement

instance (kind : Statement → Prop) [DecidablePred kind] (sql : Option String) :
    Decidable (ReadAs kind sql) :=
  match h : ofText sql with
  | .ok statement => decidable_of_iff (kind statement)
    ⟨fun hkind _ hread => Except.ok.inj (h.symm.trans hread) ▸ hkind, fun hall => hall _ h⟩
  | .error _ => isTrue fun _ hread => absurd (h.symm.trans hread) (by simp)

/-- The conditions that a statement finds rows by, in the form of the columns,
    if everything before has been found to be right. -/
def boundConditions (schema : StoredSchema) : Statement → Except Fault (List Condition)
  | select _ _ conditions _ _ _ => bindConditions schema conditions
  | update table assignments conditions => do
    checkAssignments schema table assignments
    bindConditions schema conditions
  | delete _ conditions => bindConditions schema conditions
  | _ => .ok []

/-- What a statement does with the rows that were found, apart from indexes. -/
def withFound (layout : KeyLayout) (schema : StoredSchema) (found : List (Value × Row)) :
    Statement → Access QueryResult
  | select _ items _ order limit offset =>
    let rows := pageRows limit offset (sortRows order (found.map Prod.snd))
    if items.isEmpty then do
      let rows ← lift (projectColumns schema.columnNames rows)
      pure { rows := rows, columns := schema.columnNames }
    else
      pure {
        rows := rows.map (projectRow items)
        columns := items.map fun item => .string item.outputName }
  | update table assignments _ => do
    let n ← (Engine.mk layout false).updateRows table schema assignments [] found
    pure { affected := n }
  | delete table _ => do
    let n ← (Engine.mk layout false).deleteRows table [] found
    pure { affected := n }
  | _ => pure {}

/-- A statement with the rows that it finds given, and without indexes. -/
def plainly (layout : KeyLayout) (schema : StoredSchema)
    (find : List Condition → Except Fault (List (Value × Row))) (statement : Statement) :
    Access QueryResult := do
  let conditions ← lift (statement.boundConditions schema)
  let found ← lift (find conditions)
  statement.withFound layout schema found

end Statement

/-- A function that returns, for all conditions, what some plan returns. -/
def FindsAlways (rows : List (String × Row))
    (find : List Condition → Except Fault (List (Value × Row))) : Prop :=
  ∀ conditions, Finds conditions rows (find conditions)

namespace Engine

variable {engine : Engine} {schema : TableSchema} {rows : List (String × Row)}

/-- The functions that a store has for the conditions on a table. -/
theorem exists_find (hw : d.Describes engine.layout w.store)
    (hindexed : d.Indexed engine.layout w.store) (hname : Key.fits (Text.encode table) = true)
    (h : w.store.HoldsRows engine.layout table schema rows) :
    ∃ find, FindsAlways rows find
      ∧ (engine.useIndexes = false → ∀ conditions,
        find conditions = (matchesOf conditions rows).map (List.map asFound))
      ∧ ∀ conditions, (engine.findRows table conditions).Looks w (find conditions) := by
  choose find hlooks hfinds using looks_findRows hw (hindexed _) hname h
  refine ⟨find, hfinds, fun huse conditions => ?_, hlooks⟩
  have hplain := looks_findRows_plain hname h huse conditions
  rw [Looks, (hlooks conditions : _ = _)] at hplain
  exact (Prod.mk.inj hplain).1

/-- The indexes among those of a table that an update concerns. -/
theorem concernedIndexes_stored {indexes : List IndexDefinition} (h : d.Lists table indexes)
    (changed : List String) :
    ∃ concerned : List IndexDefinition,
      concernedIndexes changed (indexes.map IndexDefinition.stored)
        = .ok (concerned.map IndexDefinition.stored)
        ∧ d.Concerns table (· ∈ changed) concerned := by
  refine ⟨indexes.filter fun index => changed.any fun column => index.column = column, ?_, ?_⟩
  · rw [concernedIndexes, if_pos (haveNames_stored indexes), List.filter_map]
    refine congrArg _ (congrArg _ (List.filter_congr fun index _ => ?_))
    simp only [Function.comp, IndexDefinition.stored, Json.string.injEq]
  · refine ⟨fun index hindex => h.covers index (List.mem_filter.mp hindex).1,
      fun name column hcovers hchanged => ?_,
      h.nodup.sublist (List.filter_sublist.map IndexDefinition.name)⟩
    rcases h.complete name column hcovers with ⟨index, hindex, hname, hcolumn⟩
    refine ⟨index, List.mem_filter.mpr ⟨hindex, ?_⟩, hname, hcolumn⟩
    rw [List.any_eq_true]
    exact ⟨column, hchanged, decide_eq_true hcolumn⟩

/-- A statement that finds rows follows its plain form for the function that its
    store has. -/
theorem executeStatement_follows (hw : d.Describes engine.layout w.store)
    (hindexed : d.Indexed engine.layout w.store) {statement : Statement} (hplain : statement.Plain)
    (hfinds : statement.FindsRows) (ht : d.tables statement.table = some schema)
    (hids : schema.KeepsIds) (h : w.store.HoldsRows engine.layout statement.table schema rows)
    {find : List Condition → Except Fault (List (Value × Row))} (hfind : FindsAlways rows find)
    (hlooks : ∀ conditions, (engine.findRows statement.table conditions).Looks w (find conditions))
    (halike : v.Alike engine.layout w) :
    (engine.executeStatement statement).Follows engine.layout
      (statement.plainly engine.layout schema.stored find) w v
      (fun w' => d.Indexed engine.layout w'.store)
      fun _ w' v' => v'.Alike engine.layout w' ∧ d.Indexed engine.layout w'.store := by
  have hname := hw.wellFormed.schema_fits statement.table schema ht
  have hwell := hw.wellFormed.schema_wellFormed statement.table schema ht
  cases statement, hfinds using Statement.FindsRows.elim with
  | select table items conditions order limit offset =>
    refine Follows.look (Catalog.looks_requireSchema hw ht) ?_
    refine Follows.outcome halike hindexed fun bound _ => ?_
    rw [requireText_stored hw.wellFormed ht, lift_ok_bind]
    refine Follows.looked (hlooks bound) halike hindexed fun found _ => ?_
    dsimp only [Statement.withFound]
    split
    · refine Follows.outcome halike hindexed fun projected _ => ?_
      exact follows_pure ⟨halike, hindexed⟩
    · exact follows_pure ⟨halike, hindexed⟩
  | update table assignments conditions =>
    refine Follows.look (Catalog.looks_requireSchema hw ht) ?_
    rw [Statement.plainly, Statement.boundConditions]
    rcases hcheck : checkAssignments schema.stored table assignments with fault | _
    · exact Or.inr (Or.inl ⟨fault, w, v, rfl, rfl, halike, hindexed⟩)
    rw [lift_ok_bind, ok_bind]
    refine Follows.outcome halike hindexed fun bound _ => ?_
    rcases Catalog.looks_indexes hw hname with ⟨indexes, hlists, hindexes⟩
    rcases concernedIndexes_stored hlists (assignments.map Assignment.column) with
      ⟨concerned, hconcerned, hconcerns⟩
    refine Follows.look hindexes ?_
    dsimp only
    rw [hconcerned, lift_ok_bind, requireText_stored hw.wellFormed ht, lift_ok_bind]
    refine Follows.looked (hlooks bound) halike hindexed fun found hfound => ?_
    -- What is found is some of the rows, each of them once.
    rcases (hfind bound).exists_sublist hfound with ⟨part, hpart, rfl⟩
    refine Follows.bind (updateRows_follows hwell hids hplain hconcerns
      (h.nodup.sublist (hpart.map Prod.fst)) (fun p hp => h.filed p (hpart.subset hp))
      (fun p hp => h.get?_row (hpart.subset hp)) hindexed halike) ?_
    rintro n w' v' hend
    exact follows_pure hend
  | delete table conditions =>
    refine Follows.look (Catalog.looks_requireSchema hw ht) ?_
    refine Follows.outcome halike hindexed fun bound _ => ?_
    rcases Catalog.looks_indexes hw hname with ⟨indexes, hlists, hindexes⟩
    refine Follows.look hindexes ?_
    rw [requireText_stored hw.wellFormed ht, lift_ok_bind]
    refine Follows.looked (hlooks bound) halike hindexed fun found hfound => ?_
    rcases (hfind bound).exists_sublist hfound with ⟨part, hpart, rfl⟩
    refine Follows.bind (deleteRows_follows hlists.concerns
      (h.nodup.sublist (hpart.map Prod.fst)) (fun p hp => h.filed p (hpart.subset hp))
      (fun p hp => h.get?_row (hpart.subset hp)) hindexed halike) ?_
    rintro n w' v' hend
    exact follows_pure hend

/-- A statement that finds rows follows its plain form. -/
theorem execute_follows (hw : d.Describes engine.layout w.store)
    (hindexed : d.Indexed engine.layout w.store) {statement : Statement} (hplain : statement.Plain)
    (hfinds : statement.FindsRows) (ht : d.tables statement.table = some schema)
    (hids : schema.KeepsIds) (h : w.store.HoldsRows engine.layout statement.table schema rows)
    (halike : v.Alike engine.layout w) :
    ∃ find, FindsAlways rows find
      ∧ (engine.useIndexes = false → ∀ conditions,
        find conditions = (matchesOf conditions rows).map (List.map asFound))
      ∧ (engine.executeStatement statement).Follows engine.layout
        (statement.plainly engine.layout schema.stored find) w v
        (fun w' => d.Indexed engine.layout w'.store)
        fun _ w' v' => v'.Alike engine.layout w' ∧ d.Indexed engine.layout w'.store := by
  have hname := hw.wellFormed.schema_fits statement.table schema ht
  rcases exists_find hw hindexed hname h with ⟨find, hfind, hplainly, hlooks⟩
  exact ⟨find, hfind, hplainly,
    executeStatement_follows hw hindexed hplain hfinds ht hids h hfind hlooks halike⟩

/-- Why a statement about rows of a table that does not exist fails. -/
def missingFault (layout : KeyLayout) (table : String) : Fault :=
  match layout.schemaKey? table with
  | .ok _ => .tableNotFound table
  | .error fault => fault

theorem looks_requireSchema_missing (hw : d.Describes engine.layout w.store)
    (ht : d.tables table = none) :
    (Catalog.requireSchema engine.layout table).Looks w (.error (missingFault engine.layout table)) := by
  have hlooks := Catalog.looks_schema? hw table
  rw [ht] at hlooks
  rw [missingFault]
  rcases hkey : engine.layout.schemaKey? table with fault | key
  · rw [hkey] at hlooks
    exact hlooks.run_bind_error
  · rw [hkey] at hlooks
    exact hlooks.run_bind

/-- A statement about rows of a table that does not exist fails. -/
theorem looks_missing (hw : d.Describes engine.layout w.store) {statement : Statement}
    (hkind : statement.Manipulates) (ht : d.tables statement.table = none) :
    (engine.executeStatement statement).Looks w
      (.error (missingFault engine.layout statement.table)) := by
  have hmissing := looks_requireSchema_missing hw ht
  rcases hkind.insert_or_findsRows with ⟨table, columns, values, rfl⟩ | hfinds
  · -- An insertion asks for the schema when it files the row.
    have hfile : (engine.fileRow table columns values).Looks w
        (.error (missingFault engine.layout table)) := hmissing.run_bind_error
    exact hfile.run_bind_error
  · cases statement, hfinds using Statement.FindsRows.elim with
    | select table items conditions order limit offset => exact hmissing.run_bind_error
    | update table assignments conditions => exact hmissing.run_bind_error
    | delete table conditions => exact hmissing.run_bind_error

/-- A statement about rows keeps to a discipline that allows the rows that it
    writes. -/
theorem obeys_writes {dis : Discipline} (hwell : d.WellFormed) {statement : Statement}
    (h : d.Serves engine.layout statement.table dis) (hplain : statement.Plain)
    (hkind : statement.Manipulates)
    (hputs : ∀ schema, d.tables statement.table = some schema →
      statement.WritesWithin engine.layout schema dis)
    (hdeletes : ∀ id, (Slot.row statement.table id).Fits →
      dis.deletes ((Slot.row statement.table id).key engine.layout)) :
    (engine.executeStatement statement).Obeys dis fun _ => True := by
  rcases hkind.insert_or_findsRows with ⟨table, columns, values, rfl⟩ | hfinds
  · exact obeys_insert h hwell hplain hputs
  · cases statement, hfinds using Statement.FindsRows.elim with
    | select table items conditions order limit offset => exact obeys_select h hwell
    | update table assignments conditions => exact obeys_update h hwell hputs
    | delete table conditions => exact obeys_delete h hwell hdeletes

/-- A statement about rows changes rows and entries of its table only. -/
theorem obeys_execute (hwell : d.WellFormed) {statement : Statement} (hplain : statement.Plain)
    (hkind : statement.Manipulates) :
    (engine.executeStatement statement).Obeys (d.changes engine.layout statement.table)
      fun _ => True :=
  obeys_writes hwell (d.changes_serves _ _) hplain hkind
    (fun _ ht => Statement.writesWithin_changes hwell hplain ht)
    fun _ hfits => ⟨_, hfits, rfl, trivial, rfl⟩

end Engine

end TableStore
