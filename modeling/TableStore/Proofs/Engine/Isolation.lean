import TableStore.Proofs.Engine.Confined
import TableStore.Proofs.Engine.Reached

/-!
# Tables Do Not Concern Each Other

A statement names one table, and that table is all that it reads and all that
it changes. Whether the row of another table has the same id, or its name is
the start of this one, makes no difference to the outcome, to what the table
holds afterwards or to the ids that it is given.

Most functions get the table from the statement. Those that find rows take the
name from the stored schema instead, which a foreign store could spell in
another way. In a store that is reached the two are the same.

## Theorems

* `Engine.isolated_newRowId`: A new id depends on the table alone.
* `Engine.executeStatement_confined`: A statement is confined to its table.
* `Reached.isolated`: Texts about one table on two stores that agree on it.
-/

namespace TableStore

open Access

variable {d : Description} {engine : Engine} {table : String} {w v : World}

namespace Engine

theorem isolated_dropIndexes (indexes : List StoredIndex) :
    (engine.dropIndexes table indexes).Isolated engine.layout table := by
  induction indexes with
  | nil => exact isolated_pure ()
  | cons index indexes ih =>
    refine Isolated.outcome fun name _ => ?_
    refine (Index.isolated_clear name).bind fun _ => ?_
    exact (Catalog.isolated_deleteIndex name).bind fun _ => ih

theorem isolated_allRows : (engine.allRows table).Isolated engine.layout table :=
  isolated_readPart _

theorem isolated_plan (conditions : List Condition) :
    (engine.plan table conditions).Isolated engine.layout table := by
  rw [plan]
  split
  · exact isolated_pure _
  · refine Catalog.isolated_indexes.bind fun indexes => ?_
    split
    · exact isolated_pure _
    · exact isolated_fail _

theorem isolated_fetchMatching (conditions : List Condition) (id : String) :
    (engine.fetchMatching table conditions id).Isolated engine.layout table := by
  refine Isolated.slot KeyLayout.rowKey?_ok ?_
  refine (isolated_fetch
    (Slot.carries_own_tablePrefix engine.layout (.row table (Text.encode id)))).bind fun answer => ?_
  cases answer with
  | none => exact isolated_pure none
  | some data =>
    refine Isolated.outcome fun row _ => ?_
    exact Isolated.outcome fun matched _ => isolated_pure _

theorem isolated_findRows (conditions : List Condition) :
    (engine.findRows table conditions).Isolated engine.layout table := by
  refine (isolated_plan conditions).bind fun chosen => ?_
  cases chosen with
  | indexed name column value =>
    refine Isolated.outcome fun name _ => ?_
    refine (Index.isolated_rowIds name value).bind fun ids => ?_
    refine (isolated_mapList fun id _ => isolated_fetchMatching conditions id).bind fun found => ?_
    exact isolated_pure _
  | fullScan => exact isolated_readPart _

theorem isolated_createTable (columns : List Column) (primaryKey : Option String)
    (ifNotExists : Bool) :
    (engine.createTable table columns primaryKey ifNotExists).Isolated engine.layout table := by
  refine Catalog.isolated_schema?.bind fun found => ?_
  cases found with
  | some stored => exact isolated_answer _ _ _
  | none =>
    refine Isolated.outcome fun _ _ => ?_
    refine (Catalog.isolated_putSchema ⟨table, columns, primaryKey⟩).bind fun _ => ?_
    exact (isolated_log _).bind fun _ => isolated_pure _

theorem isolated_dropTable (ifExists : Bool) :
    (engine.dropTable table ifExists).Isolated engine.layout table := by
  refine Catalog.isolated_schema?.bind fun found => ?_
  cases found with
  | none => exact isolated_answer _ _ _
  | some stored =>
    refine Catalog.isolated_indexes.bind fun indexes => ?_
    refine (isolated_dropIndexes indexes).bind fun _ => ?_
    refine Isolated.outcome fun start hstart => ?_
    rcases Key.ofComponents_ok hstart with ⟨rfl, -⟩
    refine (Index.isolated_removeAll fun key hkey => Bytes.carries_of_append hkey).bind fun n => ?_
    refine Catalog.isolated_deleteSchema.bind fun _ => ?_
    exact (isolated_log _).bind fun _ => isolated_pure _

theorem isolated_createIndex (index column : String) (ifNotExists : Bool) :
    (engine.createIndex index table column ifNotExists).Isolated engine.layout table := by
  refine Catalog.isolated_requireSchema.bind fun schema => ?_
  split
  · exact isolated_fail _
  · refine (Catalog.isolated_index? index).bind fun found => ?_
    cases found with
    | some stored => exact isolated_answer _ _ _
    | none =>
      refine (Catalog.isolated_putIndex ⟨index, table, column⟩).bind fun _ => ?_
      refine isolated_allRows.bind fun rows => ?_
      refine (Index.isolated_backfill index column rows).bind fun n => ?_
      exact (isolated_log _).bind fun _ => isolated_pure _

theorem isolated_dropIndex (index : String) (ifExists : Bool) :
    (engine.dropIndex index table ifExists).Isolated engine.layout table := by
  refine Catalog.isolated_schema?.bind fun found => ?_
  cases found with
  | none => exact isolated_answer _ _ _
  | some stored =>
    refine (Catalog.isolated_index? index).bind fun found => ?_
    cases found with
    | none => exact isolated_answer _ _ _
    | some stored =>
      refine (Index.isolated_clear index).bind fun n => ?_
      refine (Catalog.isolated_deleteIndex index).bind fun _ => ?_
      exact (isolated_log _).bind fun _ => isolated_pure _

theorem isolated_freeId (draws : Nat) :
    (engine.freeId table draws).Isolated engine.layout table := by
  induction draws with
  | zero => exact isolated_fail _
  | succ draws ih =>
    refine isolated_drawId.bind fun id => ?_
    refine Isolated.slot KeyLayout.rowKey?_ok ?_
    refine (isolated_fetch (Slot.carries_own_tablePrefix engine.layout
      (.row table (Text.encode id)))).bind fun answer => ?_
    cases answer with
    | none => exact isolated_pure id
    | some data => exact ih

/-- A new id depends on the table alone. How many keys there are besides does
    not matter, because a search by counting ends before its draws do. -/
theorem isolated_newRowId (key : Option Value) :
    (engine.newRowId table key).Isolated engine.layout table := by
  cases key with
  | some value =>
    rw [newRowId]
    split
    · exact isolated_fail _
    · refine Isolated.slot KeyLayout.rowKey?_ok ?_
      refine (isolated_fetch (Slot.carries_own_tablePrefix engine.layout
        (.row table (Text.encode value.toText)))).bind fun answer => ?_
      cases answer with
      | none => exact isolated_pure _
      | some data => exact isolated_fail _
  | none =>
    intro w v h
    -- The stores may have different numbers of keys, so the searches are given
    -- different draws. They are compared as searches of one length.
    rcases h.ids.counts with ⟨hcounts, hcounts'⟩
    rcases @exists_draws table v w engine hcounts hcounts' with ⟨draws, hw, hv⟩
    rcases @isolated_freeId engine table draws w v h with ⟨hout, hagrees, hleft, hright⟩
    rw [← hw] at hout hagrees hleft
    rw [← hv] at hout hagrees hright
    exact ⟨hout, hagrees, hleft, hright⟩

theorem isolated_fileRow (columns : Option (List String)) (values : List Value) :
    (engine.fileRow table columns values).Isolated engine.layout table := by
  refine Catalog.isolated_requireSchema.bind fun schema => ?_
  dsimp only
  split
  · exact isolated_fail _
  · refine Isolated.outcome fun supplied _ => ?_
    refine Isolated.outcome fun _ _ => ?_
    refine Isolated.outcome fun row _ => ?_
    refine Isolated.outcome fun key _ => ?_
    refine (isolated_newRowId key).bind fun id => ?_
    refine Isolated.slot KeyLayout.rowKey?_ok ?_
    refine Isolated.outcome fun data _ => ?_
    refine (isolated_store (Slot.carries_own_tablePrefix engine.layout
      (.row table (Text.encode id)))).bind fun _ => ?_
    exact isolated_pure _

theorem isolated_insert (columns : Option (List String)) (values : List Value) :
    (engine.insert table columns values).Isolated engine.layout table := by
  refine (isolated_fileRow columns values).bind fun filed => ?_
  refine Catalog.isolated_indexes.bind fun indexes => ?_
  refine Isolated.bind ?_ fun _ => isolated_pure _
  refine isolated_forList fun index _ => ?_
  exact Isolated.outcome fun value _ => Index.isolated_moveStored index _ _ _

theorem isolated_moveEntries (old new : Row) (id : Value) (indexes : List StoredIndex) :
    (engine.moveEntries table old new id indexes).Isolated engine.layout table := by
  refine isolated_forList fun index _ => ?_
  refine Isolated.outcome fun before _ => ?_
  exact Isolated.outcome fun after _ => Index.isolated_moveStored index before after id

theorem isolated_updateRows (schema : StoredSchema) (assignments : List Assignment)
    (indexes : List StoredIndex) (found : List (Value × Row)) :
    (engine.updateRows table schema assignments indexes found).Isolated engine.layout table := by
  induction found with
  | nil => exact isolated_pure 0
  | cons p found ih =>
    rcases p with ⟨id, old⟩
    refine Isolated.outcome fun row _ => ?_
    refine (isolated_moveEntries old row id indexes).bind fun _ => ?_
    refine Isolated.outcome fun idBytes _ => ?_
    refine Isolated.slot KeyLayout.rowKey?_ok ?_
    refine Isolated.outcome fun data _ => ?_
    refine (isolated_store (Slot.carries_own_tablePrefix engine.layout
      (.row table idBytes))).bind fun _ => ?_
    exact ih.bind fun n => isolated_pure (n + 1)

theorem isolated_deleteRows (indexes : List StoredIndex) (found : List (Value × Row)) :
    (engine.deleteRows table indexes found).Isolated engine.layout table := by
  induction found with
  | nil => exact isolated_pure 0
  | cons p found ih =>
    rcases p with ⟨id, row⟩
    refine (isolated_moveEntries row [] id indexes).bind fun _ => ?_
    refine Isolated.outcome fun idBytes _ => ?_
    refine Isolated.slot KeyLayout.rowKey?_ok ?_
    refine (isolated_remove (Slot.carries_own_tablePrefix engine.layout
      (.row table idBytes))).bind fun _ => ?_
    exact ih.bind fun n => isolated_pure (n + 1)

/-- What follows the read of a schema may rely on the name in it. -/
theorem confined_requireSchema (hw : d.Describes engine.layout w.store)
    (h : w.AgreesOn engine.layout table v) {α : Type} {f : StoredSchema → Access α}
    (hf : ∀ schema : StoredSchema, schema.name.requireText = .ok table →
      (f schema).Isolated engine.layout table) :
    (Catalog.requireSchema engine.layout table >>= f).Confined engine.layout table w v := by
  refine (Catalog.isolated_requireSchema w v h).bind fun stored w' v' hrun h' => ?_
  rcases ht : d.tables table with _ | schema
  · rw [(looks_requireSchema_missing hw ht : _ = _)] at hrun
    exact absurd (Prod.mk.inj hrun).1 (by simp)
  · rw [(Catalog.looks_requireSchema hw ht : _ = _)] at hrun
    -- The schema that was read is the one that was declared under this name.
    refine hf stored ?_ w' v' h'
    rw [← Except.ok.inj (Prod.mk.inj hrun).1]
    exact requireText_stored hw.wellFormed ht

/-- A statement is confined to its table. -/
theorem executeStatement_confined (hw : d.Describes engine.layout w.store) (statement : Statement)
    (h : w.AgreesOn engine.layout statement.table v) :
    (engine.executeStatement statement).Confined engine.layout statement.table w v := by
  -- A schema has the name of its table, so what is done by that name stays within the table.
  cases statement with
  | createTable table columns primaryKey ifNotExists =>
    exact isolated_createTable columns primaryKey ifNotExists w v h
  | dropTable table ifExists => exact isolated_dropTable ifExists w v h
  | createIndex index table column ifNotExists =>
    exact isolated_createIndex index column ifNotExists w v h
  | dropIndex index table ifExists => exact isolated_dropIndex index ifExists w v h
  | insert table columns values => exact isolated_insert columns values w v h
  | select table items conditions order limit offset =>
    refine confined_requireSchema hw h fun schema hname => ?_
    refine Isolated.outcome fun bound _ => ?_
    rw [hname, lift_ok_bind]
    refine (isolated_findRows bound).bind fun found => ?_
    dsimp only
    split
    · exact (isolated_lift _).bind fun rows => isolated_pure _
    · exact isolated_pure _
  | update table assignments conditions =>
    refine confined_requireSchema hw h fun schema hname => ?_
    refine Isolated.outcome fun _ _ => ?_
    refine Isolated.outcome fun bound _ => ?_
    refine Catalog.isolated_indexes.bind fun indexes => ?_
    refine Isolated.outcome fun concerned _ => ?_
    rw [hname, lift_ok_bind]
    refine (isolated_findRows bound).bind fun found => ?_
    refine (isolated_updateRows schema assignments concerned found).bind fun n => ?_
    exact isolated_pure _
  | delete table conditions =>
    refine confined_requireSchema hw h fun schema hname => ?_
    refine Isolated.outcome fun bound _ => ?_
    refine Catalog.isolated_indexes.bind fun indexes => ?_
    rw [hname, lift_ok_bind]
    refine (isolated_findRows bound).bind fun found => ?_
    exact (isolated_deleteRows indexes found).bind fun n => isolated_pure _

end Engine

/-- What is found under one table's prefix is found beside every other
    table. -/
theorem Memory.under_of_outside {layout : KeyLayout} {m m' : Memory} {other : String}
    (ht : Key.fits (Text.encode table) = true) (ho : Key.fits (Text.encode other) = true)
    (hne : other ≠ table)
    (h : m'.outside (layout.tablePrefix table) = m.outside (layout.tablePrefix table)) :
    m'.under (layout.tablePrefix other) = m.under (layout.tablePrefix other) := by
  have hunder : ∀ u : Memory, u.under (layout.tablePrefix other)
      = (u.outside (layout.tablePrefix table)).filter fun e =>
        Bytes.carries (layout.tablePrefix other) e.1 := by
    intro u
    rw [under, outside, List.filter_filter]
    refine List.filter_congr fun e _ => ?_
    -- No key starts with the prefixes of two tables.
    by_cases hother : Bytes.carries (layout.tablePrefix other) e.1 = true
    · have hnot : Bytes.carries (layout.tablePrefix table) e.1 = false := by
        rw [Bool.eq_false_iff]
        exact fun htable => hne (KeyLayout.table_eq_of_carries ho ht hother htable)
      rw [hother, hnot]
      rfl
    · rw [Bool.not_eq_true] at hother
      rw [hother]
      rfl
  rw [hunder m', hunder m, h]

/-- Stores in memory that show surroundings which agree on a table hold the same
    under its prefix. -/
theorem World.AgreesOn.under {layout : KeyLayout} {s s' : Surroundings Memory}
    (h : w.AgreesOn layout table v) (hw : s.Shows w) (hv : s'.Shows v) :
    s.store.under (layout.tablePrefix table) = s'.store.under (layout.tablePrefix table) := by
  rw [Memory.under, Memory.under, hw.entries, hv.entries]
  exact (Contents.filter_eq_iff _).mpr h.store

/-- Stores in memory hold the same beside a table, if nothing changes there. -/
theorem World.KeepsBeside.outside {layout : KeyLayout} {s s' : Surroundings Memory} {w' : World}
    (h : w.KeepsBeside layout table w') (hw : s.Shows w) (hw' : s'.Shows w') :
    s'.store.outside (layout.tablePrefix table) = s.store.outside (layout.tablePrefix table) := by
  rw [Memory.outside, Memory.outside, hw.entries, hw'.entries]
  refine (Contents.filter_eq_iff fun k => !Bytes.carries _ k).mpr fun key hkey => h key ?_
  rw [Bool.not_eq_true'] at hkey
  exact hkey

/-- Texts about one table on two stores that agree on it have the same outcome
    and leave stores that agree on it, and nothing beside the table changes in
    either. -/
theorem Reached.isolated {layout : KeyLayout}
    {allows allows' : Tables → Except Fault QueryResult → Prop} {tables tables' : Tables}
    {s s' : Surroundings Memory} (h : Reached layout allows tables s.store)
    (h' : Reached layout allows' tables' s'.store) {sql : Option String} {statement : Statement}
    (hread : Statement.ofText sql = .ok statement)
    (hagree : s.store.under (layout.tablePrefix statement.table)
      = s'.store.under (layout.tablePrefix statement.table))
    (hids : s.ids.AlikeFor statement.table s'.ids) (useIndexes : Bool) :
    ((Engine.mk layout useIndexes).call sql s).1 = ((Engine.mk layout useIndexes).call sql s').1
      ∧ ((Engine.mk layout useIndexes).call sql s).2.store.under (layout.tablePrefix statement.table)
        = ((Engine.mk layout useIndexes).call sql s').2.store.under
          (layout.tablePrefix statement.table)
      ∧ ((Engine.mk layout useIndexes).call sql s).2.ids.AlikeFor statement.table
        ((Engine.mk layout useIndexes).call sql s').2.ids
      ∧ ((Engine.mk layout useIndexes).call sql s).2.store.outside
          (layout.tablePrefix statement.table)
        = s.store.outside (layout.tablePrefix statement.table)
      ∧ ((Engine.mk layout useIndexes).call sql s').2.store.outside
          (layout.tablePrefix statement.table)
        = s'.store.outside (layout.tablePrefix statement.table)
      ∧ ∀ other, other ≠ statement.table → Key.fits (Text.encode statement.table) = true →
        Key.fits (Text.encode other) = true →
        ((Engine.mk layout useIndexes).call sql s).2.store.under (layout.tablePrefix other)
          = s.store.under (layout.tablePrefix other) := by
  rcases h.described with ⟨d, c, -, hm, hd⟩
  rcases h'.described with ⟨-, c', -, hm', -⟩
  have hshows : s.Shows ⟨c, s.ids, s.notes⟩ := ⟨hm, rfl, rfl⟩
  have hshows' : s'.Shows ⟨c', s'.ids, s'.notes⟩ := ⟨hm', rfl, rfl⟩
  rw [Memory.under, Memory.under, hm, hm', Contents.filter_eq_iff] at hagree
  -- One of the stores has to be described, for the name in the schema it has.
  rcases @Engine.executeStatement_confined d ⟨layout, useIndexes⟩ ⟨c, s.ids, s.notes⟩
    ⟨c', s'.ids, s'.notes⟩ hd statement ⟨hagree, hids⟩ with ⟨hout, hagrees, hleft, hright⟩
  rcases (Engine.mk layout useIndexes).call_statement hread hshows with ⟨hcall, hend⟩
  rcases (Engine.mk layout useIndexes).call_statement hread hshows' with ⟨hcall', hend'⟩
  refine ⟨?_, hagrees.under hend hend', ?_, hleft.outside hshows hend, hright.outside hshows' hend',
    fun other hne ht ho => ?_⟩
  · rw [hcall, hcall', hout]
  · rw [hend.ids, hend'.ids]
    exact hagrees.ids
  · exact Memory.under_of_outside ht ho hne (hleft.outside hshows hend)

/-- A table with one row. -/
def tableAlone : List (Option String) :=
  [some "CREATE TABLE t (a INTEGER)", some "INSERT INTO t VALUES (1)"]

/-- The table with one row beside a table that has the same row ids, and whose
    name starts with its name. -/
def tableBesideLonger : List (Option String) :=
  [some "CREATE TABLE tt (a INTEGER)", some "INSERT INTO tt VALUES (7)",
    some "INSERT INTO tt VALUES (8)"] ++ tableAlone

/-- An insertion into the table draws the same id in both stores, and leaves the
    table with the longer name as it is. -/
theorem isolated_besideLonger :
    ((Engine.mk defaultLayout true).call (some "INSERT INTO t VALUES (2)")
        (freshRun tableAlone).2).2.store.under (defaultLayout.tablePrefix "t")
      = ((Engine.mk defaultLayout true).call (some "INSERT INTO t VALUES (2)")
        (freshRun tableBesideLonger).2).2.store.under (defaultLayout.tablePrefix "t")
    ∧ ((Engine.mk defaultLayout true).call (some "INSERT INTO t VALUES (2)")
        (freshRun tableBesideLonger).2).2.store.under (defaultLayout.tablePrefix "tt")
      = (freshRun tableBesideLonger).2.store.under (defaultLayout.tablePrefix "tt") := by
  have hrun : (∀ sql ∈ tableAlone, leavesIds sql = true)
      ∧ (∀ r ∈ (freshRun tableAlone).1, WithinLimits r)
      ∧ (∀ sql ∈ tableBesideLonger, leavesIds sql = true)
      ∧ (∀ r ∈ (freshRun tableBesideLonger).1, WithinLimits r)
      ∧ Statement.ofText (some "INSERT INTO t VALUES (2)") = .ok (.insert "t" none [.int 2])
      ∧ (freshRun tableBesideLonger).2.store.under (defaultLayout.tablePrefix "t")
        = (freshRun tableAlone).2.store.under (defaultLayout.tablePrefix "t")
      ∧ (freshRun tableBesideLonger).2.ids.AlikeFor "t" (freshRun tableAlone).2.ids := by
    decide +kernel
  rcases hrun with ⟨hkeeps, hlimit, hkeeps', hlimit', hread, hagree, hids⟩
  rcases @Reached.isolated _ _ _ _ _ (freshRun tableBesideLonger).2 (freshRun tableAlone).2
    (reached_freshRun hkeeps' hlimit') (reached_freshRun hkeeps hlimit) _
    (.insert "t" none [.int 2]) hread hagree hids true with ⟨-, hunder, -, -, -, hothers⟩
  exact ⟨hunder.symm, hothers "tt" (by decide) (by decide) (by decide)⟩

end TableStore
