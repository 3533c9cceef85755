import TableStore.Proofs.Engine.Step
import TableStore.Store.Access

/-!
# Stores That Texts Lead To

A store is reached from one without any key under the root by executing texts
one after the other. Each of them may be executed by an engine of its own, with
or without indexes and with ids of its own, as long as all have the same layout.
A text may be no statement, and a statement may fail.

What the user knows about the tables is kept beside the store: it follows from
the texts and their outcomes. A run is restricted by what it allows to happen
after each text. A store that is reached holds what it is meant to hold, and if
no text hits a limit and no table takes the name of the ids for a column, its
indexes agree with its rows.

## Main definitions

* `Tables.afterText`, `afterTexts`: The declared tables after one text, or
  several.
* `Reached`: The tables and the store after any number of texts.
* `Engine.call`, `Engine.calls`: Executing one text, or several.
* `Orderly`: Runs without limits and without columns that take the ids' name.

## Theorems

* `Reached.described`: A store that is reached holds what it is meant to hold.
* `Reached.indexed`: The indexes of a store that is reached in order.
* `Reached.calls`: A store that one engine reaches in order.
-/

namespace TableStore

open Access

/-- The declared tables after a text with an outcome. A text that is no
    statement changes nothing. -/
def Tables.afterText (tables : Tables) (sql : Option String) (r : Except Fault QueryResult) :
    Tables :=
  match Statement.ofText sql with
  | .ok statement => tables.after statement r
  | .error _ => tables

/-- The declared tables after texts with their outcomes. -/
def Tables.afterTexts (tables : Tables) :
    List (Option String) → List (Except Fault QueryResult) → Tables
  | sql :: texts, r :: others => (tables.afterText sql r).afterTexts texts others
  | _, _ => tables

/-- The outcome of executing a text on a store in memory, and what it leaves. -/
def Engine.call (engine : Engine) (sql : Option String) (s : Surroundings Memory) :
    Except Fault QueryResult × Surroundings Memory :=
  (engine.execute sql).run memoryBackend s

/-- The outcomes of executing texts one after the other, and what they
    leave. -/
def Engine.calls (engine : Engine) :
    List (Option String) → Surroundings Memory →
      List (Except Fault QueryResult) × Surroundings Memory
  | [], s => ([], s)
  | sql :: rest, s =>
    let (r, s) := engine.call sql s
    let (others, s) := engine.calls rest s
    (r :: others, s)

/-- A text does on a store in memory what its statement does on the contents. -/
theorem Engine.call_statement (engine : Engine) {sql : Option String} {statement : Statement}
    (hread : Statement.ofText sql = .ok statement) {s : Surroundings Memory} {w : World}
    (h : s.Shows w) :
    (engine.call sql s).1 = ((engine.executeStatement statement).on w).1
      ∧ (engine.call sql s).2.Shows ((engine.executeStatement statement).on w).2 := by
  have hrun := (engine.execute sql).run_memory h
  rw [execute, hread, lift_ok_bind] at hrun
  rw [call, execute, hread, lift_ok_bind]
  exact hrun

/-- The tables and the store that texts lead to, from a store without any key
    under the root. What is allowed is asked after each of them. -/
inductive Reached (layout : KeyLayout) (allows : Tables → Except Fault QueryResult → Prop) :
    Tables → Memory → Prop where
  | start {m : Memory} (ascending : Ascending m.entries)
      (free : ∀ entry ∈ m.entries, Bytes.carries layout.root entry.1 = false) :
      Reached layout allows (fun _ => none) m
  | call {tables : Tables} {m : Memory} (h : Reached layout allows tables m) (useIndexes : Bool)
      (sql : Option String) (ids : IdSource) (notes : List String)
      (allowed : allows
        (tables.afterText sql ((Engine.mk layout useIndexes).call sql ⟨m, ids, notes⟩).1)
        ((Engine.mk layout useIndexes).call sql ⟨m, ids, notes⟩).1) :
      Reached layout allows
        (tables.afterText sql ((Engine.mk layout useIndexes).call sql ⟨m, ids, notes⟩).1)
        ((Engine.mk layout useIndexes).call sql ⟨m, ids, notes⟩).2.store

/-- No limit is hit, and no table has a column of the name that rows keep their
    id under. -/
def Orderly (tables : Tables) (r : Except Fault QueryResult) : Prop :=
  WithinLimits r ∧ ∀ t schema, tables t = some schema → schema.KeepsIds

/-- A text that does not create a table with a column of the name that rows
    keep their id under. -/
def leavesIds (sql : Option String) : Bool :=
  match Statement.ofText sql with
  | .ok (.createTable _ columns _ _) => columns.all fun column => column.name != rowIdMember
  | _ => true

/-- What every text leaves: a store that holds what it is meant to hold, with
    indexes that agree with the rows unless a limit has been hit. -/
theorem Engine.execute_becomes {engine : Engine} {d : Description} {w : World}
    (hw : d.Describes engine.layout w.store) (sql : Option String) :
    ∃ d' : Description, d'.Describes engine.layout ((engine.execute sql).on w).2.store
      ∧ d'.tables = d.tables.afterText sql ((engine.execute sql).on w).1
      ∧ (d.Indexed engine.layout w.store → Orderly d'.tables ((engine.execute sql).on w).1 →
        d'.Indexed engine.layout ((engine.execute sql).on w).2.store) := by
  rw [execute, Tables.afterText]
  rcases hread : Statement.ofText sql with fault | statement
  · exact ⟨d, hw, rfl, fun hindexed _ => hindexed⟩
  · rw [lift_ok_bind]
    rcases executeStatement_becomes hw (Statement.plain_of_ofText hread) with ⟨d', hbecomes⟩
    refine ⟨d', hbecomes.describes, hbecomes.tables, fun hindexed horderly => ?_⟩
    exact hbecomes.indexed horderly.2 hindexed horderly.1

/-- A store without any key under the root holds nothing. -/
theorem Description.describes_free {layout : KeyLayout} {c : Contents}
    (h : ∀ entry ∈ c.entries, Bytes.carries layout.root entry.1 = false) :
    (Description.mk (fun _ => none) fun _ _ => none).Describes layout c where
  wellFormed := {
    schema_fits := fun _ _ ht => absurd ht (by simp)
    schema_name := fun _ _ ht => absurd ht (by simp)
    schema_wellFormed := fun _ _ ht => absurd ht (by simp)
    schema_bytes := fun _ _ ht => absurd ht (by simp)
    index_fits := fun _ _ _ hi => absurd hi (by simp)
    index_column := fun _ _ _ hi => absurd hi (by simp) }
  binds key value hget hcarries := by
    rw [h _ (Contents.mem_entries.mpr hget)] at hcarries
    exact absurd hcarries (by simp)
  schema_stored _ _ _ ht _ := absurd ht (by simp)
  definition_stored _ _ _ hi := absurd hi (by simp)

namespace Reached

variable {layout : KeyLayout} {allows : Tables → Except Fault QueryResult → Prop} {tables : Tables}
  {m : Memory}

/-- A store that is reached holds what it is meant to hold. -/
theorem described (h : Reached layout allows tables m) :
    ∃ (d : Description) (c : Contents), d.tables = tables ∧ m.entries = c.entries
      ∧ d.Describes layout c := by
  induction h with
  | start ascending free =>
    exact ⟨⟨fun _ => none, fun _ _ => none⟩, ⟨_, ascending⟩, rfl, rfl, Description.describes_free free⟩
  | call h useIndexes sql ids notes allowed ih =>
    rcases ih with ⟨d, c, rfl, hm, hd⟩
    rcases ((Engine.mk layout useIndexes).execute sql).run_contents hm ids notes with
      ⟨hout, hshows⟩
    rcases @Engine.execute_becomes ⟨layout, useIndexes⟩ d ⟨c, ids, notes⟩ hd sql with
      ⟨d', hd', htables, -⟩
    refine ⟨d', _, ?_, hshows.entries, hd'⟩
    rw [htables, ← hout]
    rfl

/-- The indexes of a store that is reached in order agree with its rows. -/
theorem indexed (h : Reached layout Orderly tables m) :
    ∃ (d : Description) (c : Contents), d.tables = tables ∧ m.entries = c.entries
      ∧ d.Describes layout c ∧ d.Indexed layout c
      ∧ ∀ t schema, d.tables t = some schema → schema.KeepsIds := by
  induction h with
  | start ascending free =>
    refine ⟨⟨fun _ => none, fun _ _ => none⟩, ⟨_, ascending⟩, rfl, rfl,
      Description.describes_free free, ?_, fun _ _ ht => absurd ht (by simp)⟩
    exact fun _ _ _ hi => absurd hi (by simp)
  | @call tables m h useIndexes sql ids notes allowed ih =>
    rcases ih with ⟨d, c, rfl, hm, hd, hindexed, -⟩
    rcases ((Engine.mk layout useIndexes).execute sql).run_contents hm ids notes with
      ⟨hout, hshows⟩
    rcases @Engine.execute_becomes ⟨layout, useIndexes⟩ d ⟨c, ids, notes⟩ hd sql with
      ⟨d', hd', htables, hindexed'⟩
    have hafter : d'.tables = d.tables.afterText sql
        ((Engine.mk layout useIndexes).call sql ⟨m, ids, notes⟩).1 := by
      rw [htables, ← hout]
      rfl
    -- The outcome is within the limits, so the call keeps the indexes complete.
    refine ⟨d', _, hafter, hshows.entries, hd', hindexed' hindexed ?_, ?_⟩
    · rw [hafter, ← hout]
      exact allowed
    · rw [hafter]
      exact allowed.2

/-- Tables keep their ids if no text takes the name of these. -/
theorem keepsIds_afterText {sql : Option String} (hsql : leavesIds sql = true)
    (hkeeps : ∀ t schema, tables t = some schema → schema.KeepsIds)
    (r : Except Fault QueryResult) :
    ∀ t schema, tables.afterText sql r t = some schema → schema.KeepsIds := by
  intro t schema ht
  rw [Tables.afterText] at ht
  rw [leavesIds] at hsql
  rcases hread : Statement.ofText sql with fault | statement
  · rw [hread] at ht
    exact hkeeps t schema ht
  · rw [hread] at ht hsql
    rcases Tables.declared_of_after ht with
      hbefore | ⟨-, columns, primaryKey, ifNotExists, rfl, rfl⟩
    · exact hkeeps t schema hbefore
    · -- The text that declares the table was searched for such a column.
      intro hmem
      rcases List.mem_map.mp hmem with ⟨column, hcolumn, hname⟩
      have hother := List.all_eq_true.mp hsql column hcolumn
      rw [hname] at hother
      exact absurd hother (by simp)

/-- A store that one engine reaches in order. -/
theorem calls {s : Surroundings Memory} (h : Reached layout Orderly tables s.store) (useIndexes : Bool)
    (texts : List (Option String)) (hids : ∀ sql ∈ texts, leavesIds sql = true)
    (hlimit : ∀ r ∈ ((Engine.mk layout useIndexes).calls texts s).1, WithinLimits r) :
    Reached layout Orderly (tables.afterTexts texts ((Engine.mk layout useIndexes).calls texts s).1)
      ((Engine.mk layout useIndexes).calls texts s).2.store := by
  induction texts generalizing tables s with
  | nil => exact h
  | cons sql texts ih =>
    rcases h.indexed with ⟨d, -, rfl, -, -, -, hkeeps⟩
    have hcall := h.call useIndexes sql s.ids s.notes ⟨hlimit _ List.mem_cons_self,
      keepsIds_afterText (hids sql List.mem_cons_self) hkeeps _⟩
    exact ih hcall (fun other hother => hids other (List.mem_cons_of_mem _ hother))
      fun r hr => hlimit r (List.mem_cons_of_mem _ hr)

end Reached

/-- The layout with the root that keys have unless another one is set. -/
def defaultLayout : KeyLayout :=
  ⟨KeyLayout.defaultRoot⟩

/-- A run of one engine on an empty store, with ids that count from one. -/
def freshRun (texts : List (Option String)) :
    List (Except Fault QueryResult) × Surroundings Memory :=
  (Engine.mk defaultLayout true).calls texts ⟨Memory.empty, .counting 1 1, []⟩

/-- What a run on an empty store reaches in order. -/
theorem reached_freshRun {texts : List (Option String)} (hids : ∀ sql ∈ texts, leavesIds sql = true)
    (hlimit : ∀ r ∈ (freshRun texts).1, WithinLimits r) :
    Reached defaultLayout Orderly
      (Tables.afterTexts (fun _ => none) texts (freshRun texts).1) (freshRun texts).2.store := by
  let s : Surroundings Memory := ⟨Memory.empty, .counting 1 1, []⟩
  have hstart : Reached defaultLayout Orderly (fun _ => none) s.store :=
    .start List.Pairwise.nil fun _ h => absurd h List.not_mem_nil
  exact hstart.calls true texts hids hlimit

/-- A table with an index and one row. -/
def indexedTable : List (Option String) :=
  [some "CREATE TABLE t (a INTEGER)", some "CREATE INDEX i ON t(a)", some "INSERT INTO t VALUES (1)"]

theorem reached_indexedTable : Reached defaultLayout Orderly
    (Tables.afterTexts (fun _ => none) indexedTable (freshRun indexedTable).1)
    (freshRun indexedTable).2.store :=
  reached_freshRun (by decide +kernel) (by decide +kernel)

end TableStore
