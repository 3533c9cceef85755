import TableStore.Proofs.Engine.Alike
import TableStore.Proofs.Engine.Moves

/-!
# Keeping Indexes Up to Date

Each change of a row moves its entries first and then stores the row anew or
removes it; an insertion stores the row and then adds its entries. Whichever
comes first, when both are done the indexes agree with the rows again. A
failure in between is a limit that was hit, and a failure between two rows
leaves the indexes in order.

The comparison is with a dialogue that goes through the same rows and knows of
no indexes, so besides the agreement it is shown that the indexes are all that
the two dialogues differ in.

## Main definitions

* `Description.Concerns`: The indexes that a change of columns concerns.

## Theorems

* `Engine.updateRows_follows`, `deleteRows_follows`: The changes of found rows.
* `Engine.addEntries_succeeds`: The entries of a new row.
-/

namespace TableStore

open Access

variable {d : Description} {layout : KeyLayout} {table : String} {v w : World}

/-- The indexes of a table that a change of columns concerns, each once. -/
structure Description.Concerns (d : Description) (table : String) (changed : String → Prop)
    (indexes : List IndexDefinition) : Prop where
  covers : ∀ index ∈ indexes, d.covers table index.name = some index.column
  complete : ∀ name column, d.covers table name = some column → changed column →
    ∃ index ∈ indexes, index.name = name ∧ index.column = column
  nodup : (indexes.map IndexDefinition.name).Nodup

theorem Description.Lists.concerns {indexes : List IndexDefinition} (h : d.Lists table indexes) :
    d.Concerns table (fun _ => True) indexes :=
  ⟨h.covers, fun name column hcovers _ => h.complete name column hcovers, h.nodup⟩

/-- The moves over the indexes that a change concerns leave the entries of the
    new values in all indexes. -/
theorem Index.moveAll_ends {changed : String → Prop} {indexes : List IndexDefinition}
    (hconcerned : d.Concerns table changed indexes) {old new : String → Value} (name : String)
    (hold : ∀ index column, d.covers table index = some column →
      w.store.EntriesOf layout table index (Text.encode name) (old column))
    (hkeep : ∀ column, ¬changed column → new column = old column) :
    (moveAll layout table old new (.text name) indexes).Succeeds w fun _ w' =>
      w.StepsWithin layout (IsEntryAmong table indexes (Text.encode name)) w'
        ∧ ∀ index column, d.covers table index = some column →
          w'.store.EntriesOf layout table index (Text.encode name) (new column) := by
  refine (moveAll_succeeds hconcerned.nodup old new name fun index hindex =>
    hold index.name index.column (hconcerned.covers index hindex)).imp (fun _ _ hf => hf) ?_
  rintro _ w' ⟨hsteps, hmoved⟩
  refine ⟨hsteps, fun index column hcovers => ?_⟩
  by_cases hmem : ∃ other ∈ indexes, other.name = index
  · rcases hmem with ⟨other, hother, rfl⟩
    have hcolumn := hconcerned.covers other hother
    rw [hcovers, Option.some.injEq] at hcolumn
    rw [hcolumn]
    exact hmoved other hother
  · -- An index that is not in the list covers a column that does not change.
    have hsame : ¬changed column := by
      intro hchanged
      rcases hconcerned.complete index column hcovers hchanged with ⟨other, hother, hname, -⟩
      exact hmem ⟨other, hother, hname⟩
    rw [hkeep column hsame]
    refine (hold index column hcovers).congr fun value hfits => hsteps.store.get?_slot hfits ?_
    rintro ⟨other, hother, ⟨_, heq⟩⟩
    rw [Slot.entry.injEq] at heq
    exact hmem ⟨other, hother, heq.2.1.symm⟩

namespace Slot

theorem isAbout_of_isEntryAmong {indexes : List IndexDefinition} {id : Bytes} {slot : Slot}
    (h : Index.IsEntryAmong table indexes id slot) : slot.IsAbout table id := by
  rcases h with ⟨index, -, hslot⟩
  exact Or.inr ⟨index.name, hslot⟩

theorem isOfIndex_of_isEntryAmong {indexes : List IndexDefinition} {id : Bytes} {slot : Slot}
    (h : Index.IsEntryAmong table indexes id slot) : slot.IsOfIndex := by
  rcases h with ⟨index, -, hslot⟩
  exact hslot.isOfIndex

end Slot

namespace Contents

variable {c : Contents} {schema : TableSchema}

theorem cell_of_get? {row : Row} {id data : Bytes}
    (hget : c.get? ((Slot.row table id).key layout) = some data)
    (hread : Row.ofBytes data = .ok row) (column : String) :
    c.cell layout table id column = Row.value row column := by
  rw [cell, rowAt, hget, Option.bind_some, hread]
  rfl

theorem cell_of_none {id : Bytes} (hget : c.get? ((Slot.row table id).key layout) = none)
    (column : String) : c.cell layout table id column = .null := by
  rw [cell, rowAt, hget]
  rfl

end Contents

/-- The entries of a row that was found, in all indexes. -/
theorem Description.Indexed.entries_of_found (h : d.Indexed layout w.store) {row : Row}
    {id data : Bytes} (hget : w.store.get? ((Slot.row table id).key layout) = some data)
    (hread : Row.ofBytes data = .ok row) {index column : String}
    (hcovers : d.covers table index = some column) :
    w.store.EntriesOf layout table index id (Row.value row column) := by
  rw [← Contents.cell_of_get? hget hread]
  exact h table index column hcovers id

section

variable {c c₁ : Contents} {id : Bytes}

/-- A row that is stored after its entries. -/
theorem Description.Indexed.insert_row (h : d.Indexed layout c)
    (hstep : c.SameExcept layout (Slot.IsAbout table id) c₁) {row : Row} {data : Bytes}
    (hentries : ∀ index column, d.covers table index = some column →
      c₁.EntriesOf layout table index id (Row.value row column))
    (hfits : (Slot.row table id).Fits) (hread : Row.ofBytes data = .ok row) :
    d.Indexed layout (c₁.insert ((Slot.row table id).key layout) data) := by
  refine h.of_row (hstep.trans (Contents.SameExcept.insert hfits (Or.inl rfl) data)) ?_
  intro index column hcovers
  rw [Contents.cell_of_get? (Contents.get?_insert_self _ _ _) hread]
  refine (hentries index column hcovers).congr fun value hentry => ?_
  exact Contents.get?_insert_other _ _ (Slot.key_ne hentry hfits (by simp))

/-- A row that is removed after its entries. -/
theorem Description.Indexed.erase_row (h : d.Indexed layout c)
    (hstep : c.SameExcept layout (Slot.IsAbout table id) c₁)
    (hentries : ∀ index column, d.covers table index = some column →
      c₁.EntriesOf layout table index id .null) (hfits : (Slot.row table id).Fits) :
    d.Indexed layout (c₁.erase ((Slot.row table id).key layout)) := by
  refine h.of_row (hstep.trans (Contents.SameExcept.erase hfits (Or.inl rfl))) ?_
  intro index column hcovers
  rw [Contents.cell_of_none (Contents.get?_erase_self _ _)]
  refine (hentries index column hcovers).congr fun value hentry => ?_
  exact Contents.get?_erase_other _ (Slot.key_ne hentry hfits (by simp))

end

/-- A member that is not assigned stays as it is. -/
theorem get?_of_assignRow {schema : StoredSchema} {old row row' : Row}
    {assignments : List Assignment} (h : assignRow schema old row assignments = .ok row')
    {column : String} (hcolumn : column ∉ assignments.map Assignment.column) :
    Members.get? row' column = Members.get? row column := by
  induction assignments generalizing row with
  | nil => rw [Except.ok.inj h]
  | cons assignment assignments ih =>
    rw [List.map_cons, List.mem_cons, not_or] at hcolumn
    rcases exists_of_assignRow_cons h with ⟨_, _, _, -, -, -, hrest⟩
    rw [ih hrest hcolumn.2, Members.get?_set, if_neg hcolumn.1]

theorem value_of_assignRow {schema : StoredSchema} {old row row' : Row}
    {assignments : List Assignment} (h : assignRow schema old row assignments = .ok row')
    {column : String} (hcolumn : column ∉ assignments.map Assignment.column) :
    Row.value row' column = Row.value row column := by
  rw [Row.value, get?_of_assignRow h hcolumn, Row.value]

/-- A row of the right shape that has been written is filed. -/
theorem FiledRow.of_toBytes {schema : TableSchema} (hwell : schema.WellFormed)
    (hids : schema.KeepsIds) {name : String} {row : Row} {data : Bytes}
    (hfits : (Slot.row table (Text.encode name)).Fits) (haccepts : schema.Accepts name row)
    (hbytes : row.toBytes = .ok data) : FiledRow table schema (name, row) where
  fits := hfits
  accepts := haccepts
  read := by
    rw [Row.bytes_eq hbytes]
    exact Row.ofBytes_toBytes (haccepts.names_nodup hwell hids) haccepts.scalar hbytes

/-- A change of one row leaves the others where they are. -/
theorem get?_other_row {c c' : Contents} {id : Bytes}
    (hstep : c.SameExcept layout (Slot.IsAbout table id) c') {p : String × Row}
    (hfits : (Slot.row table (Text.encode p.1)).Fits) (hne : Text.encode p.1 ≠ id) :
    c'.get? ((Slot.row table (Text.encode p.1)).key layout)
      = c.get? ((Slot.row table (Text.encode p.1)).key layout) :=
  hstep.get?_slot hfits (Slot.not_isAbout_row fun hsame => hne hsame.2)

/-- The key of a filed row is built from its id. -/
theorem rowKey_bind {α : Type} {name : String} (hfits : (Slot.row table (Text.encode name)).Fits)
    (f : Bytes → Access α) :
    (do
      let id ← lift (RowId.toKey (.text name))
      let key ← lift (layout.rowKey? table id)
      f key) = f ((Slot.row table (Text.encode name)).key layout) := by
  change (lift (layout.rowKey? table (Text.encode name)) >>= f) = _
  rw [KeyLayout.rowKey?_fits hfits]
  rfl

namespace Engine

variable {engine : Engine} {schema : TableSchema} {rows : List (String × Row)}
  {indexes : List IndexDefinition}

theorem moveEntries_nil (old new : Row) (id : Value) :
    engine.moveEntries table old new id [] = pure () :=
  rfl

/-- An update does what it would do without indexes, and leaves all indexes in
    agreement with the rows. -/
theorem updateRows_follows (hwell : schema.WellFormed) (hids : schema.KeepsIds)
    {assignments : List Assignment} (hassignments : ∀ a ∈ assignments, a.value.IsDenoted)
    (hconcerned : d.Concerns table (· ∈ assignments.map Assignment.column) indexes)
    (hnodup : (rows.map Prod.fst).Nodup) (hfiled : ∀ p ∈ rows, FiledRow table schema p)
    (hstored : ∀ p ∈ rows, w.store.get? ((Slot.row table (Text.encode p.1)).key engine.layout)
      = some (Row.bytes p.2))
    (hindexed : d.Indexed engine.layout w.store) (halike : v.Alike engine.layout w) :
    (engine.updateRows table schema.stored assignments (indexes.map IndexDefinition.stored)
      (rows.map asFound)).Follows engine.layout
        ((Engine.mk engine.layout false).updateRows table schema.stored assignments []
          (rows.map asFound)) w v (fun w' => d.Indexed engine.layout w'.store)
        fun _ w' v' => v'.Alike engine.layout w' ∧ d.Indexed engine.layout w'.store := by
  induction rows generalizing v w with
  | nil => exact follows_pure ⟨halike, hindexed⟩
  | cons p rows ih =>
    rw [List.map_cons, List.nodup_cons] at hnodup
    have hp := hfiled p List.mem_cons_self
    have hget := hstored p List.mem_cons_self
    refine Follows.outcome halike hindexed fun row hrow => ?_
    rw [moveEntries_stored]
    refine Follows.step (Index.moveAll_ends hconcerned p.1
      (fun index column hcovers => hindexed.entries_of_found hget hp.read hcovers)
      fun column hcolumn => value_of_assignRow hrow hcolumn) ?_
    rintro _ w₁ ⟨hsteps, hentries⟩
    have halike₁ := halike.of_steps hsteps fun _ => Slot.isOfIndex_of_isEntryAmong
    -- From here on both dialogues write the same row. Only a limit can come
    -- between the entries and the row.
    rw [moveEntries_nil, pure_bind, rowKey_bind hp.fits, rowKey_bind hp.fits]
    refine Follows.limit (fun fault hfault => Or.inl (Row.toBytes_error hfault)) fun data hdata => ?_
    have hrow' := FiledRow.of_toBytes hwell hids hp.fits
      (accepts_of_assignRow hwell hids hassignments hp.accepts hp.accepts hrow) hdata
    have hread := hrow'.read
    rw [Row.bytes_eq hdata] at hread
    have hstep : w.store.SameExcept engine.layout (Slot.IsAbout table (Text.encode p.1)) w₁.store :=
      hsteps.store.imp fun _ => Slot.isAbout_of_isEntryAmong
    have hstep' := hstep.trans (Contents.SameExcept.insert hp.fits (Or.inl rfl) data)
    refine Follows.store (Follows.bind (ih hnodup.2
      (fun q hq => hfiled q (List.mem_cons_of_mem p hq)) (fun q hq => ?_)
      (hindexed.insert_row hstep hentries hp.fits hread) (halike₁.insert _ data)) ?_)
    · -- The rows that are still to be changed have other ids.
      rw [get?_other_row hstep' (hfiled q (List.mem_cons_of_mem p hq)).fits]
      · exact hstored q (List.mem_cons_of_mem p hq)
      · intro heq
        exact hnodup.1 (List.mem_map.mpr ⟨q, hq, Text.encode_injective heq⟩)
    · rintro n w' v' hend
      exact follows_pure hend

/-- A removal does what it would do without indexes, and leaves all indexes in
    agreement with the rows. -/
theorem deleteRows_follows (hconcerned : d.Concerns table (fun _ => True) indexes)
    (hnodup : (rows.map Prod.fst).Nodup) (hfiled : ∀ p ∈ rows, FiledRow table schema p)
    (hstored : ∀ p ∈ rows, w.store.get? ((Slot.row table (Text.encode p.1)).key engine.layout)
      = some (Row.bytes p.2))
    (hindexed : d.Indexed engine.layout w.store) (halike : v.Alike engine.layout w) :
    (engine.deleteRows table (indexes.map IndexDefinition.stored) (rows.map asFound)).Follows
      engine.layout ((Engine.mk engine.layout false).deleteRows table [] (rows.map asFound)) w v
      (fun w' => d.Indexed engine.layout w'.store)
      fun _ w' v' => v'.Alike engine.layout w' ∧ d.Indexed engine.layout w'.store := by
  induction rows generalizing v w with
  | nil => exact follows_pure ⟨halike, hindexed⟩
  | cons p rows ih =>
    rw [List.map_cons, List.nodup_cons] at hnodup
    have hp := hfiled p List.mem_cons_self
    have hget := hstored p List.mem_cons_self
    rw [List.map_cons, asFound, deleteRows, deleteRows, moveEntries_stored]
    refine Follows.step (Index.moveAll_ends hconcerned p.1
      (fun index column hcovers => hindexed.entries_of_found hget hp.read hcovers)
      fun column hcolumn => absurd trivial hcolumn) ?_
    rintro _ w₁ ⟨hsteps, hentries⟩
    have halike₁ := halike.of_steps hsteps fun _ => Slot.isOfIndex_of_isEntryAmong
    have hstep : w.store.SameExcept engine.layout (Slot.IsAbout table (Text.encode p.1)) w₁.store :=
      hsteps.store.imp fun _ => Slot.isAbout_of_isEntryAmong
    have hstep' := hstep.trans (Contents.SameExcept.erase hp.fits (Or.inl rfl))
    rw [moveEntries_nil, pure_bind, rowKey_bind hp.fits, rowKey_bind hp.fits]
    refine Follows.remove (Follows.bind (ih hnodup.2
      (fun q hq => hfiled q (List.mem_cons_of_mem p hq)) (fun q hq => ?_)
      (hindexed.erase_row hstep hentries hp.fits) (halike₁.erase _)) ?_)
    · -- The rows that are left to delete are still there.
      rw [get?_other_row hstep' (hfiled q (List.mem_cons_of_mem p hq)).fits]
      · exact hstored q (List.mem_cons_of_mem p hq)
      · intro heq
        exact hnodup.1 (List.mem_map.mpr ⟨q, hq, Text.encode_injective heq⟩)
    · rintro n w' v' hend
      exact follows_pure hend

end Engine

end TableStore
