import TableStore.Proofs.Engine.Definition

/-!
# One Statement

What the store is meant to hold after a statement follows from what it was
meant to hold before: the tables are those that the statements so far have
created and not dropped, whatever else has been tried. That is said without
looking at the store, by the statement and its outcome, so it is what the user
knows.

Every statement leaves a store that holds what it is meant to hold, also if it
fails half way. That the indexes agree with the rows is left by those that do
not hit a limit.

## Main definitions

* `Tables.after`: The declared tables after a statement.
* `Description.Becomes`: What a statement leaves.

## Theorems

* `Engine.executeStatement_becomes`: What every statement leaves.
-/

namespace TableStore

open Access

variable {d d' : Description} {w w' : World}

/-- The declared tables after a statement with an outcome. Creating a table
    that is there changes nothing. -/
def Tables.after (tables : Tables) : Statement → Except Fault QueryResult → Tables
  | .createTable table columns primaryKey _, .ok _ => fun t =>
    if t = table ∧ (tables table).isNone = true then some ⟨table, columns, primaryKey⟩ else tables t
  | .dropTable table _, .ok _ => fun t => if t = table then none else tables t
  | _, _ => tables

theorem Tables.after_error (tables : Tables) (statement : Statement) (fault : Fault) :
    tables.after statement (.error fault) = tables := by
  cases statement <;> rfl

theorem Tables.after_manipulates (tables : Tables) {statement : Statement}
    (h : statement.Manipulates) (r : Except Fault QueryResult) :
    tables.after statement r = tables := by
  cases statement with
  | createTable table columns primaryKey ifNotExists => exact absurd h fun hf => hf
  | dropTable table ifExists => exact absurd h fun hf => hf
  | _ => rfl

/-- A table that is declared after a statement was declared before, or it is the one
    that the statement has declared. -/
theorem Tables.declared_of_after {tables : Tables} {statement : Statement}
    {r : Except Fault QueryResult} {table : String} {schema : TableSchema}
    (h : tables.after statement r table = some schema) :
    tables table = some schema ∨ (tables table = none ∧ ∃ columns primaryKey ifNotExists,
      statement = .createTable table columns primaryKey ifNotExists
        ∧ schema = ⟨table, columns, primaryKey⟩) := by
  rcases r with fault | result
  · rw [after_error] at h
    exact Or.inl h
  cases statement with
  | createTable other columns primaryKey ifNotExists =>
    dsimp only [after] at h
    split at h
    · rename_i hnew
      rcases hnew with ⟨rfl, hnone⟩
      exact Or.inr ⟨Option.isNone_iff_eq_none.mp hnone, columns, primaryKey, ifNotExists, rfl,
        (Option.some.inj h).symm⟩
    · exact Or.inl h
  | dropTable other ifExists =>
    dsimp only [after] at h
    split at h
    · exact absurd h (by simp)
    · exact Or.inl h
  | _ => exact Or.inl h

/-- What a statement leaves when it ends in an outcome: a store that holds what
    it is then meant to hold, with indexes that agree with the rows unless a
    limit has been hit. -/
structure Description.Becomes (layout : KeyLayout) (d d' : Description) (statement : Statement)
    (w w' : World) (r : Except Fault QueryResult) : Prop where
  describes : d'.Describes layout w'.store
  tables : d'.tables = d.tables.after statement r
  indexed : (∀ t schema, d'.tables t = some schema → schema.KeepsIds) →
    d.Indexed layout w.store → WithinLimits r →
    d'.Indexed layout w'.store

/-- A statement that leaves the store and the tables as they are. -/
theorem Description.Becomes.unchanged {layout : KeyLayout} (hw : d.Describes layout w.store)
    {statement : Statement} {r : Except Fault QueryResult} (hstore : w'.store = w.store)
    (htables : d.tables.after statement r = d.tables) :
    d.Becomes layout d statement w w' r where
  describes := by rw [hstore]; exact hw
  tables := htables.symm
  indexed _ hindexed _ := by rw [hstore]; exact hindexed

namespace Engine

variable {engine : Engine}

/-- A statement about rows leaves indexes that agree with the rows, unless it
    hits a limit. -/
theorem manipulation_indexed (hw : d.Describes engine.layout w.store)
    (hindexed : d.Indexed engine.layout w.store)
    (hkeeps : ∀ t schema, d.tables t = some schema → schema.KeepsIds) {statement : Statement}
    (hplain : statement.Plain) (hkind : statement.Manipulates)
    (hlimit : WithinLimits ((engine.executeStatement statement).on w).1) :
    d.Indexed engine.layout ((engine.executeStatement statement).on w).2.store := by
  -- However a run ends that is followed by another, the indexes agree after it.
  have hend : ∀ {y : Access QueryResult}, (engine.executeStatement statement).Follows engine.layout y
      w w (fun w' => d.Indexed engine.layout w'.store)
      (fun _ w' v' => v'.Alike engine.layout w' ∧ d.Indexed engine.layout w'.store) →
      d.Indexed engine.layout ((engine.executeStatement statement).on w).2.store := by
    rintro y (⟨fault, w', hx, hf⟩ | ⟨fault, w', v', hx, -, -, hkept⟩ | ⟨a, w', v', hx, -, -, hpost⟩)
    · exact absurd hf (hlimit fault (by rw [hx]))
    · rw [hx]
      exact hkept
    · rw [hx]
      exact hpost
  rcases ht : d.tables statement.table with _ | schema
  · rw [(looks_missing hw hkind ht : _ = _)]
    exact hindexed
  · have hids := hkeeps statement.table schema ht
    rcases hkind.insert_or_findsRows with ⟨table, columns, values, rfl⟩ | hfinds
    · exact hend (insert_follows hw hindexed ht hids hplain (Follows.refl _ w))
    · rcases exists_rows hw ht hids with ⟨rows, hrows⟩
      rcases execute_follows hw hindexed hplain hfinds ht hids hrows
        (World.Alike.refl engine.layout w) with ⟨find, -, -, hfollows⟩
      exact hend hfollows

theorem createTable_becomes (hw : d.Describes engine.layout w.store) {table : String}
    {columns : List Column} {primaryKey : Option String} {ifNotExists : Bool}
    (hplain : (Statement.createTable table columns primaryKey ifNotExists).Plain) :
    ∃ d', d.Becomes engine.layout d' (.createTable table columns primaryKey ifNotExists) w
      ((engine.createTable table columns primaryKey ifNotExists).on w).2
      ((engine.createTable table columns primaryKey ifNotExists).on w).1 := by
  rcases @createTable_yields d table w engine hw columns primaryKey ifNotExists with
    ⟨fault, w', hrun, rfl⟩ | ⟨result, w', hrun, ⟨hsome, rfl⟩ | ⟨hnone, hfits, data, hdata, hstore⟩⟩
  · rw [hrun]
    exact ⟨d, .unchanged hw rfl (Tables.after_error _ _ _)⟩
  · rw [hrun]
    refine ⟨d, .unchanged hw rfl ?_⟩
    -- The table was there, so it is not declared anew.
    funext t
    refine if_neg ?_
    rintro ⟨-, hnone⟩
    exact hsome (Option.isNone_iff_eq_none.mp hnone)
  · rw [hrun]
    refine ⟨d.declare ⟨table, columns, primaryKey⟩, ?_, ?_, fun _ hindexed _ => ?_⟩
    · rw [hstore]
      exact hw.declare hnone hfits hplain hdata
    · funext t
      rw [Tables.after, hnone]
      simp [Description.declare]
    · rw [hstore]
      exact hindexed.declare hfits data

theorem dropTable_becomes (hw : d.Describes engine.layout w.store) {table : String}
    {ifExists : Bool} :
    ∃ d', d.Becomes engine.layout d' (.dropTable table ifExists) w
      ((engine.dropTable table ifExists).on w).2 ((engine.dropTable table ifExists).on w).1 := by
  rcases @dropTable_yields d table w engine hw ifExists with
    ⟨fault, w', hrun, rfl⟩ | ⟨result, w', hrun, ⟨hnone, rfl⟩ | hloses⟩
  · rw [hrun]
    exact ⟨d, .unchanged hw rfl (Tables.after_error _ _ _)⟩
  · rw [hrun]
    -- There was no such table, so the tables without it are the same.
    refine ⟨d, .unchanged hw rfl ?_⟩
    funext t
    change (if t = table then none else d.tables t) = d.tables t
    split
    · rename_i heq
      rw [heq, hnone]
    · rfl
  · rw [hrun]
    exact ⟨d.undeclare table, hw.undeclare hloses, rfl, fun _ hindexed _ => hindexed.undeclare hloses⟩

theorem dropIndex_becomes (hw : d.Describes engine.layout w.store) {index table : String}
    {ifExists : Bool} :
    ∃ d', d.Becomes engine.layout d' (.dropIndex index table ifExists) w
      ((engine.dropIndex index table ifExists).on w).2
      ((engine.dropIndex index table ifExists).on w).1 := by
  rcases @dropIndex_yields d table index w engine hw ifExists with
    ⟨fault, w', hrun, rfl⟩ | ⟨result, w', hrun, rfl | hloses⟩
  · rw [hrun]
    exact ⟨d, .unchanged hw rfl (Tables.after_error _ _ _)⟩
  · rw [hrun]
    exact ⟨d, .unchanged hw rfl rfl⟩
  · rw [hrun]
    exact ⟨d.uncover table index, hw.uncover hloses, rfl,
      fun _ hindexed _ => hindexed.uncover hloses⟩

theorem createIndex_becomes (hw : d.Describes engine.layout w.store) {index table column : String}
    {ifNotExists : Bool} :
    ∃ d', d.Becomes engine.layout d' (.createIndex index table column ifNotExists) w
      ((engine.createIndex index table column ifNotExists).on w).2
      ((engine.createIndex index table column ifNotExists).on w).1 := by
  rcases @createIndex_on d table index column w engine hw ifNotExists with
    ⟨r, hrun, -⟩ | ⟨schema, ht, hcolumn, hnone, hfits, hrun⟩
  · rw [(hrun : _ = _)]
    exact ⟨d, .unchanged hw rfl rfl⟩
  · rw [hrun]
    have hdefined := hw.cover ht hcolumn hnone hfits
    have hcovers := d.covers_cover_self table index column
    refine ⟨d.cover table index column, ?_, rfl, fun hkeeps hindexed hlimit => ?_⟩
    · exact ((obeys_fillIndex ((d.cover table index column).changes_serves _ table) hcovers).describes hdefined).1
    · rcases createIndex_succeeds hw hindexed ht (hkeeps table schema ht) hcolumn hnone hfits with
        ⟨fault, w', hfill, hf⟩ | ⟨result, w', hfill, -, hfilled⟩
      · exact absurd hf (hlimit fault (by rw [hfill]))
      · rw [hfill]
        exact hfilled

/-- What every statement leaves. -/
theorem executeStatement_becomes (hw : d.Describes engine.layout w.store) {statement : Statement}
    (hplain : statement.Plain) :
    ∃ d', d.Becomes engine.layout d' statement w ((engine.executeStatement statement).on w).2
      ((engine.executeStatement statement).on w).1 := by
  -- Statements on rows leave the declarations as they are.
  have hmanipulates : statement.Manipulates → ∃ d', d.Becomes engine.layout d' statement w
      ((engine.executeStatement statement).on w).2 ((engine.executeStatement statement).on w).1 := by
    intro hkind
    refine ⟨d, ((obeys_execute hw.wellFormed hplain hkind).describes hw).1,
      (Tables.after_manipulates _ hkind _).symm, fun hkeeps hindexed hlimit => ?_⟩
    exact manipulation_indexed hw hindexed hkeeps hplain hkind hlimit
  cases statement with
  | createTable table columns primaryKey ifNotExists => exact createTable_becomes hw hplain
  | dropTable table ifExists => exact dropTable_becomes hw
  | createIndex index table column ifNotExists => exact createIndex_becomes hw
  | dropIndex index table ifExists => exact dropIndex_becomes hw
  | insert table columns values => exact hmanipulates trivial
  | select table items conditions order limit offset => exact hmanipulates trivial
  | update table assignments conditions => exact hmanipulates trivial
  | delete table conditions => exact hmanipulates trivial

end Engine

end TableStore
