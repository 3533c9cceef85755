import TableStore.Proofs.Engine.Reached

/-!
# What a Dropped Table Leaves

A table is dropped by removing what can be listed: the indexes that have a
definition, each with its entries, then the rows, then the schema. A definition
or an entry that the lists miss would stay behind, and it would come back to
life in the next table of that name.

Nothing is missed, because nothing is ever there that a description does not
account for. A row has a schema, and an entry has a definition. So the keys
under the prefix of a table are gone once it is dropped, and a table without a
schema has no keys at all, whatever statements have failed on the way.

## Theorems

* `Description.Describes.free_of_undeclared`: A table without a schema has no
  keys.
* `Engine.createTable_starts`: A table that is created has a schema only.
* `Reached.dropTable_leaves_nothing`: What dropping a table leaves.
-/

namespace TableStore

open Access

variable {d : Description} {layout : KeyLayout} {table : String} {key : Bytes}

namespace Description.Describes

variable {c : Contents}

/-- The schema of a table is stored exactly if the table is declared. -/
theorem get?_schema_eq_none (hd : d.Describes layout c) (hfits : (Slot.schema table).Fits) :
    c.get? ((Slot.schema table).key layout) = none ↔ d.tables table = none := by
  constructor
  · intro hget
    rcases ht : d.tables table with _ | schema
    · rfl
    · rcases hd.wellFormed.schema_bytes table schema ht with ⟨data, hdata⟩
      rw [hd.schema_stored table schema data ht hdata] at hget
      exact absurd hget (by simp)
  · intro ht
    rcases hget : c.get? ((Slot.schema table).key layout) with _ | data
    · rfl
    · rcases hd.allows hfits hget with ⟨schema, hschema, -⟩
      rw [ht] at hschema
      exact absurd hschema (by simp)

/-- A table without a schema has no keys. -/
theorem free_of_undeclared (hd : d.Describes layout c)
    (hname : Key.fits (Text.encode table) = true) (ht : d.tables table = none)
    (hcarries : Bytes.carries (layout.tablePrefix table) key = true) : c.get? key = none := by
  rcases hget : c.get? key with _ | value
  · rfl
  rcases hd.binds key value hget (KeyLayout.carries_root_of_tablePrefix hcarries) with
    ⟨slot, hfits, rfl, hallows⟩
  have htable := (Slot.carries_tablePrefix hfits hname).mp hcarries
  -- Whatever there may be at the place, the table would have a schema.
  have hdeclared : ∃ schema, d.tables table = some schema := by
    cases slot with
    | schema t =>
      rcases hallows with ⟨schema, hschema, -⟩
      exact ⟨schema, htable ▸ hschema⟩
    | row t id =>
      rcases hallows with ⟨schema, hschema, -⟩
      exact ⟨schema, htable ▸ hschema⟩
    | definition t index =>
      rcases hallows with ⟨column, hcovers, -⟩
      rcases hd.wellFormed.index_column t index column hcovers with ⟨schema, hschema, -⟩
      exact ⟨schema, htable ▸ hschema⟩
    | entry t index bytes id =>
      rcases hallows with ⟨column, hcovers⟩
      rcases hd.wellFormed.index_column t index column hcovers with ⟨schema, hschema, -⟩
      exact ⟨schema, htable ▸ hschema⟩
  rcases hdeclared with ⟨schema, hschema⟩
  rw [ht] at hschema
  exact absurd hschema (by simp)

end Description.Describes

namespace Engine

variable {engine : Engine} {w : World}

/-- A table that is created has a schema only. -/
theorem createTable_starts (hw : d.Describes engine.layout w.store)
    (hfits : (Slot.schema table).Fits) (ht : d.tables table = none) {columns : List Column}
    {primaryKey : Option String} {ifNotExists : Bool} :
    (engine.createTable table columns primaryKey ifNotExists).Yields w (fun _ _ => True) fun _ w' =>
      ∃ data, TableSchema.toBytes ⟨table, columns, primaryKey⟩ = .ok data
        ∧ (w'.store.entries.filter fun e => Bytes.carries (engine.layout.tablePrefix table) e.1)
          = [((Slot.schema table).key engine.layout, data)] := by
  refine (createTable_yields hw).imp (fun _ _ _ => trivial) ?_
  rintro _ w' (⟨hsome, -⟩ | ⟨-, -, data, hdata, hstore⟩)
  · exact absurd ht hsome
  refine ⟨data, hdata, ?_⟩
  -- Nothing was under the prefix before, so the new schema is all there is.
  refine Ascending.eq_of_mem_iff (w'.store.ascending.sublist List.filter_sublist)
    (List.pairwise_singleton _ _) ?_
  rintro ⟨key, value⟩
  rw [List.mem_filter, Contents.mem_entries, hstore, Contents.get?_insert, List.mem_singleton,
    Prod.mk.injEq]
  constructor
  · rintro ⟨hget, hcarries⟩
    rw [hw.free_of_undeclared hfits.table_fits ht hcarries] at hget
    split at hget
    · rename_i hkey
      exact ⟨hkey, (Option.some.inj hget).symm⟩
    · exact absurd hget (by simp)
  · rintro ⟨rfl, rfl⟩
    exact ⟨if_pos rfl, (Slot.carries_tablePrefix hfits hfits.table_fits).mpr rfl⟩

/-- The removal of a table that is there leaves the keys of the others. -/
theorem dropTable_leaves (hw : d.Describes engine.layout w.store) {schema : TableSchema}
    (ht : d.tables table = some schema) (ifExists : Bool) :
    (engine.dropTable table ifExists).Yields w (fun _ _ => False) fun result w' =>
      result = { affected := (w.store.entries.filter fun e =>
          Bytes.carries (engine.layout.rowPrefix table) e.1).length }
        ∧ w'.store = w.store.without (engine.layout.tablePrefix table)
        ∧ (d.undeclare table).Describes engine.layout w'.store := by
  have hname := hw.wellFormed.schema_fits table schema ht
  refine (dropTable_present hw ht ifExists).imp (fun _ _ hfalse => hfalse) ?_
  rintro result w' ⟨hresult, hloses⟩
  refine ⟨hresult, hloses.eq_without hw.placed ?_ ?_, hw.undeclare hloses⟩
  · exact fun key hcarries => KeyLayout.carries_root_of_tablePrefix hcarries
  · exact fun slot hfits => Slot.carries_tablePrefix hfits hname

variable {useIndexes : Bool} {s : Surroundings Memory}

/-- A text that creates a table leaves its schema only. -/
theorem call_createTable_starts (hw : d.Describes layout w.store) (hshows : s.Shows w)
    (hfits : (Slot.schema table).Fits) (ht : d.tables table = none) {sql : Option String}
    {columns : List Column} {primaryKey : Option String} {ifNotExists : Bool} {result : QueryResult}
    (hread : Statement.ofText sql = .ok (.createTable table columns primaryKey ifNotExists))
    (hok : ((Engine.mk layout useIndexes).call sql s).1 = .ok result) :
    ∃ data, TableSchema.toBytes ⟨table, columns, primaryKey⟩ = .ok data
      ∧ ((Engine.mk layout useIndexes).call sql s).2.store.under (layout.tablePrefix table)
        = [((Slot.schema table).key layout, data)] := by
  rcases (Engine.mk layout useIndexes).call_statement hread hshows with ⟨hout, hend⟩
  have hcreates := @createTable_starts d table ⟨layout, useIndexes⟩ w hw hfits ht columns primaryKey
    ifNotExists
  rw [hok] at hout
  rw [Memory.under, hend.entries]
  exact hcreates.of_ok (Prod.ext hout.symm rfl)

/-- A text that drops a table takes all keys of the table and no others. -/
theorem call_dropTable_leaves (hw : d.Describes layout w.store) (hshows : s.Shows w)
    {schema : TableSchema} (ht : d.tables table = some schema) {sql : Option String}
    {ifExists : Bool} (hread : Statement.ofText sql = .ok (.dropTable table ifExists)) :
    ((Engine.mk layout useIndexes).call sql s).1
        = .ok { affected := (s.store.under (layout.rowPrefix table)).length }
      ∧ ((Engine.mk layout useIndexes).call sql s).2.store.entries
        = s.store.outside (layout.tablePrefix table)
      ∧ ∃ w' : World, ((Engine.mk layout useIndexes).call sql s).2.Shows w'
        ∧ (d.undeclare table).Describes layout w'.store := by
  rcases (Engine.mk layout useIndexes).call_statement hread hshows with ⟨hout, hend⟩
  rcases @dropTable_leaves d table ⟨layout, useIndexes⟩ w hw schema ht ifExists with
    ⟨_, _, -, hfalse⟩ | ⟨result, w', hrun, hresult, hstore, hafter⟩
  · exact absurd hfalse fun hf => hf
  rw [executeStatement, hrun] at hout hend
  rw [hresult] at hout
  refine ⟨?_, ?_, w', hend, hafter⟩
  · rw [hout, Memory.under, hshows.entries]
  · rw [hend.entries, hstore, Memory.outside, hshows.entries]
    rfl

/-- A text that drops a table if it is there changes nothing if it is not. -/
theorem call_dropTable_missing (hw : d.Describes layout w.store) (hshows : s.Shows w)
    (hfits : (Slot.schema table).Fits) (ht : d.tables table = none) {sql : Option String}
    (hread : Statement.ofText sql = .ok (.dropTable table true)) :
    ((Engine.mk layout useIndexes).call sql s).1 = .ok {}
      ∧ ((Engine.mk layout useIndexes).call sql s).2.store.entries = s.store.entries := by
  rcases (Engine.mk layout useIndexes).call_statement hread hshows with ⟨hout, hend⟩
  have hrun : ((Engine.mk layout useIndexes).dropTable table true).on w = (.ok {}, w) :=
    @dropTable_missing d table w ⟨layout, useIndexes⟩ hw hfits ht true
  rw [executeStatement, hrun] at hout hend
  exact ⟨hout, hend.entries.trans hshows.entries.symm⟩

end Engine

namespace Reached

variable {allows : Tables → Except Fault QueryResult → Prop} {tables : Tables}
  {s : Surroundings Memory}

/-- Dropping a table that is there counts its rows, takes all keys of the table
    and no others, and once more does nothing. A table without a schema has no
    keys, so one that is created anew starts with its schema alone. -/
theorem dropTable_leaves_nothing (h : Reached layout allows tables s.store)
    (hkey : layout.schemaKey? table = .ok key) :
    (lookupEntry key s.store.entries = none → s.store.under (layout.tablePrefix table) = []
      ∧ ∀ (useIndexes : Bool) (sql : Option String) (columns : List Column)
          (primaryKey : Option String) (ifNotExists : Bool) (result : QueryResult),
        Statement.ofText sql = .ok (.createTable table columns primaryKey ifNotExists) →
        ((Engine.mk layout useIndexes).call sql s).1 = .ok result →
        ∃ data, TableSchema.toBytes ⟨table, columns, primaryKey⟩ = .ok data
          ∧ ((Engine.mk layout useIndexes).call sql s).2.store.under (layout.tablePrefix table)
            = [(key, data)])
    ∧ (lookupEntry key s.store.entries ≠ none →
      ∀ (useIndexes : Bool) (sql : Option String) (ifExists : Bool),
        Statement.ofText sql = .ok (.dropTable table ifExists) →
        ∃ after : Surroundings Memory, (Engine.mk layout useIndexes).call sql s
            = (.ok { affected := (s.store.under (layout.rowPrefix table)).length }, after)
          ∧ after.store.entries = s.store.outside (layout.tablePrefix table)
          ∧ ∀ (useIndexes : Bool) (again : Option String),
            Statement.ofText again = .ok (.dropTable table true) →
            ((Engine.mk layout useIndexes).call again after).1 = .ok {}
              ∧ ((Engine.mk layout useIndexes).call again after).2.store.entries
                = after.store.entries) := by
  rcases h.described with ⟨d, c, rfl, hm, hd⟩
  rcases KeyLayout.schemaKey?_ok hkey with ⟨rfl, hfits⟩
  have hshows : s.Shows ⟨c, s.ids, s.notes⟩ := ⟨hm, rfl, rfl⟩
  rw [hm, show lookupEntry _ c.entries = c.get? _ from rfl, Ne, hd.get?_schema_eq_none hfits]
  refine ⟨fun ht => ⟨?_, ?_⟩, fun ht => ?_⟩
  · rw [Memory.under, hm]
    refine List.filter_eq_nil_iff.mpr fun e he hcarries => ?_
    have hget := hd.free_of_undeclared hfits.table_fits ht hcarries
    rw [Contents.mem_entries.mp he] at hget
    exact absurd hget (by simp)
  · intro useIndexes sql columns primaryKey ifNotExists result hread hok
    exact Engine.call_createTable_starts hd hshows hfits ht hread hok
  · intro useIndexes sql ifExists hread
    rcases Option.ne_none_iff_exists'.mp ht with ⟨schema, ht⟩
    rcases @Engine.call_dropTable_leaves d layout table _ useIndexes s hd hshows schema ht sql
      ifExists hread with ⟨hout, hleft, w', hend, hafter⟩
    -- The store that is left is described again, without the table.
    refine ⟨_, Prod.ext hout rfl, hleft, fun useIndexes' again hagain => ?_⟩
    exact Engine.call_dropTable_missing hafter hend hfits (if_pos rfl) hagain

end Reached

/-- Dropping a table with an index and one row leaves nothing at all. -/
theorem dropTable_leaves_nothing_indexedTable :
    (freshRun indexedTable).2.store.entries.length = 4
      ∧ ((Engine.mk defaultLayout true).call (some "DROP TABLE t") (freshRun indexedTable).2).1
        = .ok { affected := 1 }
      ∧ ((Engine.mk defaultLayout true).call (some "DROP TABLE t")
        (freshRun indexedTable).2).2.store.entries = [] := by
  have hrun : lookupEntry (defaultLayout.schemaKey "t") (freshRun indexedTable).2.store.entries ≠ none
      ∧ Statement.ofText (some "DROP TABLE t") = .ok (.dropTable "t" false)
      ∧ (freshRun indexedTable).2.store.entries.length = 4
      ∧ ((freshRun indexedTable).2.store.under (defaultLayout.rowPrefix "t")).length = 1
      ∧ (freshRun indexedTable).2.store.outside (defaultLayout.tablePrefix "t") = [] := by
    decide +kernel
  rcases hrun with ⟨hthere, hread, hsize, hrows, hleft⟩
  have hkey : defaultLayout.schemaKey? "t" = .ok (defaultLayout.schemaKey "t") := by decide
  rcases (reached_indexedTable.dropTable_leaves_nothing hkey).2 hthere true _ false hread with
    ⟨after, hcall, hentries, -⟩
  rw [hcall, hentries, hrows, hleft]
  exact ⟨hsize, rfl, rfl⟩

end TableStore
