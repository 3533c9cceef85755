import TableStore.Proofs.Engine.Comparison
import TableStore.Proofs.Engine.Redescription

/-!
# Executing Definitions Soundly

What the statements on tables and indexes leave in the store. A table that is
created has a schema and nothing else. A table that is dropped takes with it
everything that is stored about it, because every index of it is listed and
every entry belongs to an index. A new index starts without entries, for an
entry without a definition is nowhere to be found, and is then given those of
the rows that are there.

## Main definitions

* `Engine.fillIndex`: The entries of a new index.

## Theorems

* `Engine.createTable_yields`, `dropTable_yields`, `dropIndex_yields`: What the
  statements leave.
* `Engine.dropTable_present`: The removal of a table that is there.
* `Engine.createIndex_on`: The creation of an index up to its entries.
* `Engine.createIndex_fills`, `dropIndex_present`: An index that can be created, or removed.
* `Engine.fillIndex_agrees`: The entries of a new index agree with the rows.
-/

namespace TableStore

open Access

variable {d : Description} {table index column : String} {w : World}

/-- An index that is not described has neither a definition nor entries. -/
theorem Description.Describes.free_of_uncovered {layout : KeyLayout} {c : Contents}
    (hd : d.Describes layout c) (hnone : d.covers table index = none) {slot : Slot}
    (hfits : slot.Fits) (hpart : slot.IsPartOf table index) : c.get? (slot.key layout) = none := by
  rcases hget : c.get? (slot.key layout) with _ | data
  · rfl
  have hcovered : ∃ column, d.covers table index = some column := by
    rcases hpart with rfl | ⟨value, id, rfl⟩
    · rcases hd.allows hfits hget with ⟨column, hcovers, -⟩
      exact ⟨column, hcovers⟩
    · exact hd.allows hfits hget
  rcases hcovered with ⟨column, hcovers⟩
  rw [hnone] at hcovers
  exact absurd hcovers (by simp)

/-- What is bound about a table is its schema, a row, or a part of one of its indexes. -/
theorem Description.Describes.part_of_table {layout : KeyLayout} {c : Contents}
    (hd : d.Describes layout c) {slot : Slot} {value : Bytes} (hslot : slot.Fits) (hget : c.get? (slot.key layout) = some value)
    (htable : slot.table = table) :
    slot = .schema table ∨ (∃ id, slot = .row table id)
      ∨ ∃ index column, d.covers table index = some column ∧ slot.IsPartOf table index := by
  have hallows := hd.allows hslot hget
  cases slot with
  | schema t => exact Or.inl (congrArg Slot.schema htable)
  | row t id => exact Or.inr (Or.inl ⟨id, congrArg (Slot.row · id) htable⟩)
  | definition t index =>
    rcases hallows with ⟨column, hcovers, -⟩
    rw [show t = table from htable] at hcovers ⊢
    exact Or.inr (Or.inr ⟨index, column, hcovers, Or.inl rfl⟩)
  | entry t index bytes id =>
    rcases hallows with ⟨column, hcovers⟩
    rw [show t = table from htable] at hcovers ⊢
    exact Or.inr (Or.inr ⟨index, column, hcovers, Or.inr ⟨bytes, id, rfl⟩⟩)

/-- An index that has just been defined has no entries. -/
theorem Description.Describes.entriesOf_null {layout : KeyLayout} {c c' : Contents}
    (hd : d.Describes layout c) (hnone : d.covers table index = none)
    (hsame : c.SameExcept layout (Slot.definition table index = ·) c') (id : Bytes) :
    c'.EntriesOf layout table index id .null := by
  intro value data hfits
  rw [hsame.get?_slot hfits (by simp), hd.free_of_uncovered hnone hfits (Or.inr ⟨value, id, rfl⟩)]
  exact ⟨fun hget => absurd hget (by simp), fun hboth => absurd hboth.2 (by simp [Key.encodeIndexValue])⟩

namespace Engine

variable {engine : Engine}

/-- What the creation of a table leaves. -/
theorem createTable_yields (hw : d.Describes engine.layout w.store) {columns : List Column}
    {primaryKey : Option String} {ifNotExists : Bool} :
    (engine.createTable table columns primaryKey ifNotExists).Yields w (fun _ w' => w' = w)
      fun _ w' => (d.tables table ≠ none ∧ w' = w) ∨ (d.tables table = none
        ∧ (Slot.schema table).Fits ∧ ∃ data,
          TableSchema.toBytes ⟨table, columns, primaryKey⟩ = .ok data
          ∧ w'.store = w.store.insert ((Slot.schema table).key engine.layout) data) := by
  refine Yields.looked (Catalog.looks_schema? hw table) (fun _ _ => rfl) fun found hfound => ?_
  rcases exists_of_bind_eq_ok hfound with ⟨key, hkey, hfound⟩
  rcases KeyLayout.schemaKey?_ok hkey with ⟨rfl, hfits⟩
  rw [← Except.ok.inj hfound]
  -- What the catalog answers decides whether the schema is written.
  rcases ht : d.tables table with _ | schema
  · dsimp only [Option.map_none]
    refine Yields.outcome (fun _ _ => rfl) fun _ _ => ?_
    have hput : (Catalog.putSchema engine.layout ⟨table, columns, primaryKey⟩).Yields w
        (fun _ w' => w' = w) fun _ w' => ∃ data,
          TableSchema.toBytes ⟨table, columns, primaryKey⟩ = .ok data
          ∧ w'.store = w.store.insert ((Slot.schema table).key engine.layout) data := by
      rw [Catalog.putSchema, hkey, lift_ok_bind]
      exact Yields.outcome (fun _ _ => rfl) fun data hdata => yields_store ⟨data, hdata, rfl⟩
    refine hput.bind ?_
    rintro _ w' ⟨data, hdata, hstore⟩
    exact Yields.log (yields_pure (Or.inr ⟨rfl, hfits, data, hdata, hstore⟩))
  · dsimp only [Option.map_some]
    split
    · exact yields_pure (Or.inl ⟨by simp, rfl⟩)
    · exact yields_fail rfl

/-- The removal of a table that is there does not fail. It takes everything
    that is stored about the table, and counts the rows. -/
theorem dropTable_present (hw : d.Describes engine.layout w.store) {schema : TableSchema}
    (ht : d.tables table = some schema) (ifExists : Bool) :
    (engine.dropTable table ifExists).Yields w (fun _ _ => False) fun result w' =>
      result = { affected := (w.store.entries.filter fun e =>
          Bytes.carries (engine.layout.rowPrefix table) e.1).length }
        ∧ w.store.Loses engine.layout (·.table = table) w'.store := by
  have hfits := hw.wellFormed.schema_slot_fits ht
  have hname : Key.fits (Text.encode table) = true := hfits.table_fits
  rcases Catalog.looks_indexes hw hname with ⟨indexes, hlists, hlooks⟩
  rcases dropIndexes_loses (fun index hindex =>
    hw.wellFormed.definition_slot_fits (hlists.covers index hindex)) hw.placed with
    ⟨c₁, hrun₁, hloses₁⟩
  have hrun₂ := Index.removeAll_on (engine.layout.rowPrefix table) { w with store := c₁ }
  have hloses₂ := Contents.Loses.without (hloses₁.placed hw.placed) fun key =>
    @KeyLayout.carries_root_of_rowPrefix engine.layout table key
  -- The rows are still there when they are counted.
  have hrows : (c₁.entries.filter fun e => Bytes.carries (engine.layout.rowPrefix table) e.1)
      = w.store.entries.filter fun e => Bytes.carries (engine.layout.rowPrefix table) e.1 := by
    refine (Contents.filter_eq_iff _).mpr fun key hcarries => hloses₁.same key ?_
    rintro slot hslot ⟨index, -, hpart⟩ rfl
    rcases (Slot.carries_rowPrefix hslot hname).mp hcarries with ⟨id, rfl⟩
    rcases hpart with hpart | ⟨_, _, hpart⟩
    · exact absurd hpart (by simp)
    · exact absurd hpart (by simp)
  rw [hrows] at hrun₂
  refine Yields.look (Catalog.looks_schema?_some hw ht) (Yields.look hlooks (Yields.ran hrun₁ ?_))
  rw [KeyLayout.rowPrefix?_fits hname, lift_ok_bind]
  refine Yields.ran hrun₂ ?_
  rw [Catalog.deleteSchema, KeyLayout.schemaKey?_fits hfits, lift_ok_bind]
  refine Yields.remove (Yields.log (yields_pure ⟨rfl, ?_⟩))
  refine ((hloses₁.trans hloses₂).trans (Contents.Loses.erase hfits _)).widen
    (fun slot hslot hgone => ?_) fun slot value hslot htable hget => ?_
  · rcases hgone with (⟨index, -, rfl | ⟨_, _, rfl⟩⟩ | hrow) | rfl
    · rfl
    · rfl
    · rcases (Slot.carries_rowPrefix hslot hname).mp hrow with ⟨id, rfl⟩
      rfl
    · rfl
  · rcases hw.part_of_table hslot hget htable with rfl | ⟨id, rfl⟩ | ⟨index, column, hcovers, hpart⟩
    · exact Or.inr rfl
    · exact Or.inl (Or.inr ((Slot.carries_rowPrefix hslot hname).mpr ⟨id, rfl⟩))
    · -- All indexes of the table are listed, and so dropped.
      rcases hlists.complete index column hcovers with ⟨other, hother, rfl, -⟩
      exact Or.inl (Or.inl ⟨other, hother, hpart⟩)

/-- The removal of a table that is not there changes nothing. -/
theorem dropTable_missing (hw : d.Describes engine.layout w.store)
    (hfits : (Slot.schema table).Fits) (ht : d.tables table = none) (ifExists : Bool) :
    (engine.dropTable table ifExists).Looks w
      (if ifExists then .ok {} else .error (.tableNotFound table)) := by
  have hlooks := Catalog.looks_schema? hw table
  rw [KeyLayout.schemaKey?_fits hfits, ok_bind, ht] at hlooks
  refine hlooks.run_bind.trans ?_
  cases ifExists <;> rfl

/-- What the removal of a table leaves. -/
theorem dropTable_yields (hw : d.Describes engine.layout w.store) {ifExists : Bool} :
    (engine.dropTable table ifExists).Yields w (fun _ w' => w' = w) fun _ w' =>
      (d.tables table = none ∧ w' = w)
        ∨ w.store.Loses engine.layout (·.table = table) w'.store := by
  rcases ht : d.tables table with _ | schema
  · rcases hkey : engine.layout.schemaKey? table with fault | key
    · have hlooks := Catalog.looks_schema? hw table
      rw [hkey, error_bind] at hlooks
      exact Or.inl ⟨fault, w, hlooks.run_bind_error, rfl⟩
    · exact (dropTable_missing hw (KeyLayout.schemaKey?_ok hkey).2 ht ifExists).yields
        (fun _ _ => rfl) fun _ _ => Or.inl ⟨rfl, rfl⟩
  · exact (dropTable_present hw ht ifExists).imp (fun _ _ hfalse => absurd hfalse fun hf => hf)
      fun _ _ hpost => Or.inr hpost.2

/-- The removal of an index that is there does not fail. It takes the definition and the
    entries, and counts these. -/
theorem dropIndex_present (hw : d.Describes engine.layout w.store)
    (hcovers : d.covers table index = some column) (ifExists : Bool) :
    (engine.dropIndex index table ifExists).Yields w (fun _ _ => False) fun result w' =>
      result = { affected := (w.store.entries.filter fun e =>
          Bytes.carries (engine.layout.indexPrefix table index) e.1).length }
        ∧ w.store.Loses engine.layout (Slot.IsPartOf table index) w'.store := by
  have hfits := hw.wellFormed.definition_slot_fits hcovers
  rcases hw.wellFormed.index_column table index column hcovers with ⟨schema, ht, -⟩
  have hlooks := Catalog.looks_index? hw table index
  rw [KeyLayout.indexMetaKey?_fits hfits, ok_bind, hcovers] at hlooks
  refine Yields.look (Catalog.looks_schema?_some hw ht) (Yields.look hlooks ?_)
  rcases dropIndex_loses hfits hw.placed fun n =>
    (do
      log s!"Dropped index {index} on {table} ({n} entries)"
      pure { affected := n } : Access QueryResult) with ⟨c, hrun, hloses⟩
  exact Or.inr ⟨_, _, hrun, rfl, hloses⟩

/-- What the removal of an index leaves. -/
theorem dropIndex_yields (hw : d.Describes engine.layout w.store) {ifExists : Bool} :
    (engine.dropIndex index table ifExists).Yields w (fun _ w' => w' = w) fun _ w' =>
      w' = w ∨ w.store.Loses engine.layout (Slot.IsPartOf table index) w'.store := by
  rcases hcovers : d.covers table index with _ | column
  · -- There is no such index: nothing is removed, whether or not its table is there.
    refine Yields.looked (Catalog.looks_schema? hw table) (fun _ _ => rfl) fun found hfound => ?_
    rcases exists_of_bind_eq_ok hfound with ⟨key, hkey, hfound⟩
    rw [← Except.ok.inj hfound]
    rcases d.tables table with _ | schema
    · dsimp only [Option.map_none]
      split
      · exact yields_pure (Or.inl rfl)
      · exact yields_fail rfl
    · dsimp only [Option.map_some]
      refine Yields.looked (Catalog.looks_index? hw table index) (fun _ _ => rfl)
        fun found hfound => ?_
      rcases exists_of_bind_eq_ok hfound with ⟨key, hkey, hfound⟩
      rw [← Except.ok.inj hfound, hcovers]
      dsimp only [Option.map_none]
      split
      · exact yields_pure (Or.inl rfl)
      · exact yields_fail rfl
  · exact (dropIndex_present hw hcovers ifExists).imp
      (fun _ _ hfalse => absurd hfalse fun hf => hf) fun _ _ hpost => Or.inr hpost.2

/-- The entries of an index that has just been defined. -/
def fillIndex (engine : Engine) (index table column : String) : Access QueryResult := do
  let rows ← engine.allRows table
  let n ← Index.backfill engine.layout table index column rows
  Access.log s!"Created index {index} on {table}({column}), {n} entries"
  pure { columns := [.string column], affected := n }

/-- The creation of an index that is not there, on a declared column, comes down to filling
    it once it is defined. -/
theorem createIndex_fills (hw : d.Describes engine.layout w.store) {schema : TableSchema}
    (ht : d.tables table = some schema) (hcolumn : column ∈ schema.names)
    (hnone : d.covers table index = none) (hfits : (Slot.definition table index).Fits)
    {ifNotExists : Bool} :
    (engine.createIndex index table column ifNotExists).on w
      = (engine.fillIndex index table column).on { w with
        store := w.store.insert ((Slot.definition table index).key engine.layout)
          (IndexDefinition.toBytes ⟨index, table, column⟩) } := by
  have hlooks := Catalog.looks_index? hw table index
  rw [KeyLayout.indexMetaKey?_fits hfits, ok_bind, hnone] at hlooks
  refine (Catalog.looks_requireSchema hw ht).run_bind.trans ?_
  rw [if_neg (by simp [TableSchema.hasColumn_stored.mpr hcolumn])]
  refine hlooks.run_bind.trans ?_
  dsimp only [Option.map_none]
  rw [Catalog.putIndex, KeyLayout.indexMetaKey?_fits hfits]
  rfl

/-- The creation of an index ends before anything is changed, or comes down to
    filling it once it is defined. An index that can be created only ends before
    because of a limit. -/
theorem createIndex_on (hw : d.Describes engine.layout w.store) {ifNotExists : Bool} :
    (∃ r, (engine.createIndex index table column ifNotExists).Looks w r
        ∧ ∀ schema, d.tables table = some schema → column ∈ schema.names →
          d.covers table index = none → ¬WithinLimits r)
      ∨ ∃ schema, d.tables table = some schema ∧ column ∈ schema.names
        ∧ d.covers table index = none ∧ (Slot.definition table index).Fits
        ∧ (engine.createIndex index table column ifNotExists).on w
          = (engine.fillIndex index table column).on { w with
            store := w.store.insert ((Slot.definition table index).key engine.layout)
              (IndexDefinition.toBytes ⟨index, table, column⟩) } := by
  -- Up to the new definition things are only looked up, so a run ends unchanged or fills the index.
  rcases ht : d.tables table with _ | schema
  · exact Or.inl ⟨_, (looks_requireSchema_missing hw ht).run_bind_error,
      fun schema hschema => absurd hschema (by simp)⟩
  have hrequire := Catalog.looks_requireSchema hw ht
  by_cases hcolumn : schema.stored.hasColumn column = true
  · rcases hkey : engine.layout.indexMetaKey? table index with fault | key
    · have hlooks := Catalog.looks_index? hw table index
      rw [hkey, error_bind] at hlooks
      refine Or.inl ⟨.error fault, hrequire.run_bind.trans ?_, fun _ _ _ _ hlimit => ?_⟩
      · rw [if_neg (by simp [hcolumn])]
        exact hlooks.run_bind_error
      · exact hlimit fault rfl (Or.inr (Key.ofComponents_error hkey))
    · rcases KeyLayout.indexMetaKey?_ok hkey with ⟨rfl, hfits⟩
      have hlooks := Catalog.looks_index? hw table index
      rw [hkey, ok_bind] at hlooks
      rcases hcovers : d.covers table index with _ | covered
      · have hmem := TableSchema.hasColumn_stored.mp hcolumn
        exact Or.inr ⟨schema, rfl, hmem, rfl, hfits, createIndex_fills hw ht hmem hcovers hfits⟩
      · rw [hcovers] at hlooks
        refine Or.inl ⟨if ifNotExists then .ok { columns := [.string column] }
          else .error (.indexExists index table), hrequire.run_bind.trans ?_,
          fun _ _ _ hnone => absurd hnone (by simp)⟩
        rw [if_neg (by simp [hcolumn])]
        refine hlooks.run_bind.trans ?_
        dsimp only [Option.map_some]
        split <;> rfl
  · refine Or.inl ⟨.error (.columnNotFound column table), hrequire.run_bind.trans ?_,
      fun other hother hmem => ?_⟩
    · rw [if_pos (by simp [hcolumn])]
      rfl
    · rw [Option.some.inj hother] at hcolumn
      exact absurd (TableSchema.hasColumn_stored.mpr hmem) hcolumn

/-- Filling an index changes its entries only. -/
theorem obeys_fillIndex {dis : Discipline} (h : d.Serves engine.layout table dis)
    (hcovers : d.covers table index = some column) :
    (engine.fillIndex index table column).Obeys dis fun _ => True := by
  refine (obeys_allRows h).bind fun rows _ => ?_
  refine (Index.obeys_backfill (h.changesEntries hcovers) rows).bind fun n _ => ?_
  exact (obeys_log _).bind fun _ _ => obeys_pure trivial

/-- Filling an index keeps the description. -/
theorem fillIndex_describes (hw : d.Describes engine.layout w.store)
    (hcovers : d.covers table index = some column) :
    (engine.fillIndex index table column).Yields w (fun _ _ => True) fun _ w' =>
      d.Describes engine.layout w'.store := by
  have hdescribes :=
    ((obeys_fillIndex (d.changes_serves engine.layout table) hcovers).describes hw).1
  rcases hrun : (engine.fillIndex index table column).on w with ⟨fault | result, w'⟩
  · exact Or.inl ⟨fault, w', hrun, trivial⟩
  · rw [hrun] at hdescribes
    exact Or.inr ⟨result, w', hrun, hdescribes⟩

/-- The entries of a new index agree with the rows, if it had none. Nothing else is
    changed. -/
theorem fillIndex_agrees {schema : TableSchema} {rows : List (String × Row)}
    (hname : Key.fits (Text.encode table) = true)
    (hrows : w.store.HoldsRows engine.layout table schema rows)
    (hnone : ∀ id, w.store.EntriesOf engine.layout table index id .null) :
    (engine.fillIndex index table column).Succeeds w fun _ w' =>
      w.store.SameExcept engine.layout (fun slot => ∃ value id, slot = .entry table index value id)
          w'.store
        ∧ w'.ids = w.ids
        ∧ ∀ id, w'.store.EntriesOf engine.layout table index id
          (w'.store.cell engine.layout table id column) := by
  refine Yields.look (looks_allRows hname hrows) ?_
  refine (Index.backfill_succeeds hrows.nodup fun p _ => hnone (Text.encode p.1)).bind ?_
  rintro n w' ⟨hsteps, hentries⟩
  refine Yields.log (yields_pure ⟨hsteps.store.imp ?_, hsteps.ids, fun id value data hfits => ?_⟩)
  · rintro slot ⟨p, -, value, rfl⟩
    exact ⟨value, _, rfl⟩
  · dsimp only
    rw [Contents.cell, Contents.rowAt, hsteps.store.get?_slot hfits.row_of_entry
      (by rintro ⟨_, -, ⟨_, heq⟩⟩; exact absurd heq (by simp))]
    -- There is nothing for an id without a row, and what was added for the others.
    rcases hget : w.store.get? ((Slot.row table id).key engine.layout) with _ | bytes
    · rw [hsteps.store.get?_slot hfits]
      · exact hnone id value data hfits
      · rintro ⟨p, hp, ⟨_, heq⟩⟩
        rw [Slot.entry.injEq] at heq
        rw [heq.2.2.2, hrows.get?_row hp] at hget
        exact absurd hget (by simp)
    · rcases hrows.mem_of_get? hfits.row_of_entry hget with ⟨p, hp, rfl, rfl⟩
      rw [Option.bind_some, (hrows.filed p hp).read]
      exact hentries p hp value data hfits

/-- The entries of a new index agree with the rows, if it had none and all other
    indexes agree with them. -/
theorem fillIndex_succeeds (hw : d.Describes engine.layout w.store) {schema : TableSchema}
    (ht : d.tables table = some schema) (hids : schema.KeepsIds)
    (hcovers : d.covers table index = some column)
    (hnone : ∀ id, w.store.EntriesOf engine.layout table index id .null)
    (hothers : ∀ t i other, ¬(t = table ∧ i = index) → d.covers t i = some other →
      ∀ id, w.store.EntriesOf engine.layout t i id (w.store.cell engine.layout t id other)) :
    (engine.fillIndex index table column).Succeeds w fun _ w' =>
      w.Alike engine.layout w' ∧ d.Indexed engine.layout w'.store := by
  have hname := hw.wellFormed.schema_fits table schema ht
  rcases exists_rows hw ht hids with ⟨rows, hrows⟩
  refine (fillIndex_agrees hname hrows hnone).imp (fun _ _ hf => hf) ?_
  rintro _ w' ⟨hsame, hdrawn, hentries⟩
  refine ⟨⟨hsame.imp ?_, hdrawn⟩, fun t i other hi id => ?_⟩
  · rintro slot ⟨value, id, rfl⟩
    trivial
  · -- The entries of other indexes stay as they are, and so do the rows that they list.
    by_cases hnew : t = table ∧ i = index
    · rcases hnew with ⟨rfl, rfl⟩
      rw [hcovers, Option.some.injEq] at hi
      rw [← hi]
      exact hentries id
    · intro value data hfits
      rw [hsame.get?_slot hfits, Contents.cell, Contents.rowAt,
        hsame.get?_slot hfits.row_of_entry (by rintro ⟨_, _, heq⟩; exact absurd heq (by simp))]
      · exact hothers t i other hnew hi id value data hfits
      · rintro ⟨_, _, heq⟩
        rw [Slot.entry.injEq] at heq
        exact hnew ⟨heq.1, heq.2.1⟩

/-- The creation of an index that was not there, on a declared column. -/
theorem createIndex_succeeds (hw : d.Describes engine.layout w.store)
    (hindexed : d.Indexed engine.layout w.store) {schema : TableSchema}
    (ht : d.tables table = some schema) (hids : schema.KeepsIds) (hcolumn : column ∈ schema.names)
    (hnone : d.covers table index = none) (hfits : (Slot.definition table index).Fits) :
    (engine.fillIndex index table column).Succeeds { w with
        store := w.store.insert ((Slot.definition table index).key engine.layout)
          (IndexDefinition.toBytes ⟨index, table, column⟩) } fun _ w' =>
      w.Alike engine.layout w' ∧ (d.cover table index column).Indexed engine.layout w'.store := by
  have hsame : w.store.SameExcept engine.layout (Slot.definition table index = ·)
      (w.store.insert ((Slot.definition table index).key engine.layout)
        (IndexDefinition.toBytes ⟨index, table, column⟩)) :=
    Contents.SameExcept.insert hfits rfl _
  -- The definition is stored, and no row has changed.
  have hcell : ∀ {t i other id value}, (Slot.entry t i value id).Fits →
      (w.store.insert ((Slot.definition table index).key engine.layout)
        (IndexDefinition.toBytes ⟨index, table, column⟩)).cell engine.layout t id other
        = w.store.cell engine.layout t id other := by
    intro t i other id value hentry
    rw [Contents.cell, Contents.rowAt, hsame.get?_slot hentry.row_of_entry (by simp)]
    rfl
  have ht' : (d.cover table index column).tables table = some schema := ht
  have hcovers := d.covers_cover_self table index column
  refine (fillIndex_succeeds (hw.cover ht hcolumn hnone hfits) ht' hids hcovers
    (hw.entriesOf_null hnone hsame) fun t i other hne hi id value data hentry => ?_).imp
    (fun _ _ hf => hf) ?_
  · rw [hsame.get?_slot hentry (by simp), hcell hentry]
    rcases Description.covers_cover hi with ⟨rfl, rfl, -⟩ | ⟨-, hi⟩
    · exact absurd ⟨rfl, rfl⟩ hne
    · exact hindexed t i other hi id value data hentry
  · rintro _ w' ⟨halike, hindexed'⟩
    refine ⟨⟨(hsame.imp ?_).trans halike.store, halike.ids⟩, hindexed'⟩
    rintro _ rfl
    trivial

/-- What the creation of an index leaves that was not there, on a declared
    column. -/
theorem createIndex_ends (hw : d.Describes engine.layout w.store)
    (hindexed : d.Indexed engine.layout w.store) {schema : TableSchema}
    (ht : d.tables table = some schema) (hids : schema.KeepsIds) (hcolumn : column ∈ schema.names)
    (hnone : d.covers table index = none) {ifNotExists : Bool} {w' : World}
    {r : Except Fault QueryResult}
    (hrun : (engine.createIndex index table column ifNotExists).on w = (r, w'))
    (hlimit : WithinLimits r) :
    (d.cover table index column).Describes engine.layout w'.store
      ∧ (d.cover table index column).Indexed engine.layout w'.store ∧ w.Alike engine.layout w' := by
  -- Nothing but a limit can refuse this index, and limits are excluded.
  rcases @createIndex_on d table index column w engine hw ifNotExists with
    ⟨r', hlooks, hwhy⟩ | ⟨-, -, -, -, hfits, hfill⟩
  · rw [(hlooks : _ = _)] at hrun
    rw [← (Prod.mk.inj hrun).1] at hlimit
    exact absurd hlimit (hwhy schema ht hcolumn hnone)
  · rw [hrun] at hfill
    have hdefined := hw.cover ht hcolumn hnone hfits
    rcases createIndex_succeeds hw hindexed ht hids hcolumn hnone hfits with
      ⟨fault, w₁, hends, hfault⟩ | ⟨result, w₁, hends, halike, hfilled⟩
    · rw [hends] at hfill
      exact absurd hfault (hlimit fault (Prod.mk.inj hfill).1)
    · rw [hends] at hfill
      have hdescribes := (fillIndex_describes (w := { w with store := w.store.insert _ _ }) hdefined
        (d.covers_cover_self table index column)).of_ok hends
      rw [(Prod.mk.inj hfill).2]
      exact ⟨hdescribes, hfilled, halike⟩

end Engine

end TableStore
