import TableStore.Engine.Manipulation
import TableStore.Proofs.Engine.RowShape
import TableStore.Proofs.Engine.Scan
import TableStore.Proofs.Value.Spelling

/-!
# Moving the Entries of a Row

When a row changes, its entry is moved in each index that is concerned. An
insertion moves it from null and a removal to null, so all changes are moves
over a list of indexes. What is left to see is that after the moves and the
change of the row every index agrees with the row again: those in the list have
been moved, and for the others the value in their column is the old one.

A new index starts without entries, which is what it should have if every row
were null. Backfilling then moves the entry of each row from null.

## Main definitions

* `Index.moveAll`: The moves over a list of indexes.

## Theorems

* `Description.Indexed.of_row`: A change of one row and its entries.
* `Index.moveAll_succeeds`: What the moves leave.
* `Index.moveAll_placed`: The entries of a new row have places.
* `Index.backfill_succeeds`: What backfilling leaves.
-/

namespace TableStore

open Access

variable {d : Description} {layout : KeyLayout} {table : String} {w : World}

theorem Slot.not_isAbout_row {table other : String} {id id' : Bytes}
    (hne : ¬(other = table ∧ id' = id)) : ¬(Slot.row other id').IsAbout table id := by
  rintro (heq | ⟨_, _, heq⟩)
  · rw [row.injEq] at heq
    exact hne heq
  · exact absurd heq (by simp)

theorem Slot.not_isAbout_entry {table other index : String} {value id id' : Bytes}
    (hne : ¬(other = table ∧ id' = id)) : ¬(Slot.entry other index value id').IsAbout table id := by
  rintro (heq | ⟨_, _, heq⟩)
  · exact absurd heq (by simp)
  · rw [entry.injEq] at heq
    exact hne ⟨heq.1, heq.2.2.2⟩

/-- After a change of one row and its entries all indexes agree with the rows
    if they agree with this one. -/
theorem Description.Indexed.of_row {c c' : Contents} {id : Bytes} (h : d.Indexed layout c)
    (hstep : c.SameExcept layout (Slot.IsAbout table id) c')
    (hentries : ∀ index column, d.covers table index = some column →
      c'.EntriesOf layout table index id (c'.cell layout table id column)) :
    d.Indexed layout c' := by
  intro other index column hcovers id' value data hfits
  by_cases hsame : other = table ∧ id' = id
  · rcases hsame with ⟨rfl, rfl⟩
    exact hentries index column hcovers value data hfits
  · rw [hstep.get?_slot hfits (Slot.not_isAbout_entry hsame), Contents.cell, Contents.rowAt,
      hstep.get?_slot hfits.row_of_entry (Slot.not_isAbout_row hsame)]
    exact h other index column hcovers id' value data hfits

namespace Index

/-- The entries for an id in the indexes of a list. -/
def IsEntryAmong (table : String) (indexes : List IndexDefinition) (id : Bytes) (slot : Slot) :
    Prop :=
  ∃ index ∈ indexes, slot.IsEntryOf table index.name id

/-- Moves the entries of a row in the indexes of a list, from the old values of
    their columns to the new ones. -/
def moveAll (layout : KeyLayout) (table : String) (old new : String → Value) (id : Value) :
    List IndexDefinition → Access Unit :=
  forList fun index => move layout table index.name (old index.column) (new index.column) id

/-- What the moves over a list of indexes leave. -/
theorem moveAll_succeeds {indexes : List IndexDefinition}
    (hnodup : (indexes.map IndexDefinition.name).Nodup) (old new : String → Value) (name : String)
    (h : ∀ index ∈ indexes,
      w.store.EntriesOf layout table index.name (Text.encode name) (old index.column)) :
    (moveAll layout table old new (.text name) indexes).Succeeds w fun _ w' =>
      w.StepsWithin layout (IsEntryAmong table indexes (Text.encode name)) w'
        ∧ ∀ index ∈ indexes,
          w'.store.EntriesOf layout table index.name (Text.encode name) (new index.column) := by
  induction indexes generalizing w with
  | nil => exact yields_pure ⟨World.StepsWithin.refl _ w, fun index hindex => absurd hindex (by simp)⟩
  | cons index indexes ih =>
    rw [List.map_cons, List.nodup_cons] at hnodup
    refine (move_succeeds (old index.column) (new index.column) name
      (h index List.mem_cons_self)).bind ?_
    rintro _ w' ⟨hsteps, hmoved⟩
    -- The names of the indexes differ, so no move touches what another has done.
    have hother : ∀ other ∈ indexes, ∀ value,
        ¬(Slot.entry table other.name value (Text.encode name)).IsEntryOf table index.name
          (Text.encode name) := by
      rintro other hother value ⟨_, heq⟩
      rw [Slot.entry.injEq] at heq
      exact hnodup.1 (List.mem_map.mpr ⟨other, hother, heq.2.1⟩)
    refine (ih hnodup.2 fun other hmem => ?_).imp (fun _ _ hf => hf) ?_
    · exact (h other (List.mem_cons_of_mem _ hmem)).congr fun value hfits =>
        hsteps.store.get?_slot hfits (hother other hmem value)
    · rintro _ w'' ⟨hsteps', hmoved'⟩
      refine ⟨(hsteps.imp ?_).trans (hsteps'.imp ?_), fun other hmem => ?_⟩
      · exact fun slot hslot => ⟨index, List.mem_cons_self, hslot⟩
      · rintro slot ⟨other, hmem, hslot⟩
        exact ⟨other, List.mem_cons_of_mem _ hmem, hslot⟩
      · rcases List.mem_cons.mp hmem with rfl | hmem
        · refine hmoved.congr fun value hfits => hsteps'.store.get?_slot hfits ?_
          rintro ⟨other', hmem', ⟨_, heq⟩⟩
          rw [Slot.entry.injEq] at heq
          exact hnodup.1 (List.mem_map.mpr ⟨other', hmem', heq.2.1.symm⟩)
        · exact hmoved' other hmem

/-- An index that a value has been added to has a place for it. -/
theorem move_placed (index : String) (v id : Value) :
    (move layout table index .null v id).Yields w (fun _ _ => True) fun _ _ =>
      layout.Places table index v := by
  cases hv : v.isNull with
  | true => exact yields_of_forall (fun _ _ => trivial) fun _ _ hnull => absurd (hv.symm.trans hnull) (by simp)
  | false =>
    rw [move_eq, Value.null_equals, hv, if_neg Bool.false_ne_true]
    refine Yields.look (looks_pure () w) ?_
    rw [if_neg Bool.false_ne_true]
    refine Yields.outcome (fun _ _ => trivial) fun key hkey => ?_
    rcases exists_of_bind_eq_ok hkey with ⟨start, hstart, -⟩
    exact yields_of_forall (fun _ _ => trivial) fun _ _ _ => ⟨start, hstart⟩

/-- The indexes of a list have places for the values of a new row, if its entries
    have been added. -/
theorem moveAll_placed (new : String → Value) (id : Value) (indexes : List IndexDefinition) :
    (moveAll layout table (fun _ => .null) new id indexes).Yields w (fun _ _ => True) fun _ _ =>
      ∀ index ∈ indexes, layout.Places table index.name (new index.column) := by
  induction indexes generalizing w with
  | nil => exact yields_pure fun index hindex => absurd hindex (by simp)
  | cons index indexes ih =>
    refine (move_placed index.name (new index.column) id).bind fun _ w' hfirst => ?_
    refine ih.imp (fun _ _ h => h) fun _ _ hothers other hother => ?_
    rcases List.mem_cons.mp hother with rfl | hother
    · exact hfirst
    · exact hothers other hother

/-- What backfilling leaves: each row has its entry, and an id without a row
    has none. -/
theorem backfill_succeeds {index column : String} {rows : List (String × Row)}
    (hnodup : (rows.map Prod.fst).Nodup)
    (h : ∀ p ∈ rows, w.store.EntriesOf layout table index (Text.encode p.1) .null) :
    (backfill layout table index column (rows.map asFound)).Succeeds w fun _ w' =>
      w.StepsWithin layout
          (fun slot => ∃ p ∈ rows, slot.IsEntryOf table index (Text.encode p.1)) w'
        ∧ ∀ p ∈ rows,
          w'.store.EntriesOf layout table index (Text.encode p.1) (Row.value p.2 column) := by
  induction rows generalizing w with
  | nil => exact yields_pure ⟨World.StepsWithin.refl _ w, fun p hp => absurd hp (by simp)⟩
  | cons p rows ih =>
    rw [List.map_cons, List.nodup_cons] at hnodup
    have hapart : ∀ q ∈ rows, Text.encode q.1 ≠ Text.encode p.1 := fun q hq heq =>
      hnodup.1 (List.mem_map.mpr ⟨q, hq, Text.encode_injective heq⟩)
    -- A step for the first row, and then the others as in the tail.
    have hrest : ∀ {w' : World},
        w.StepsWithin layout (Slot.IsEntryOf table index (Text.encode p.1)) w' →
        w'.store.EntriesOf layout table index (Text.encode p.1) (Row.value p.2 column) →
        (backfill layout table index column (rows.map asFound)).Succeeds w' fun _ w'' =>
          w.StepsWithin layout
              (fun slot => ∃ q ∈ p :: rows, slot.IsEntryOf table index (Text.encode q.1)) w''
            ∧ ∀ q ∈ p :: rows,
              w''.store.EntriesOf layout table index (Text.encode q.1) (Row.value q.2 column) := by
      intro w' hsteps hfirst
      refine (ih hnodup.2 fun q hq => ?_).imp (fun _ _ hf => hf) ?_
      · refine (h q (List.mem_cons_of_mem _ hq)).congr fun value hfits =>
          hsteps.store.get?_slot hfits ?_
        rintro ⟨_, heq⟩
        rw [Slot.entry.injEq] at heq
        exact hapart q hq heq.2.2.2
      · rintro _ w'' ⟨hsteps', hothers⟩
        refine ⟨(hsteps.imp ?_).trans (hsteps'.imp ?_), fun q hq => ?_⟩
        · exact fun slot hslot => ⟨p, List.mem_cons_self, hslot⟩
        · rintro slot ⟨q, hq, hslot⟩
          exact ⟨q, List.mem_cons_of_mem _ hq, hslot⟩
        · rcases List.mem_cons.mp hq with rfl | hq
          · refine hfirst.congr fun value hfits => hsteps'.store.get?_slot hfits ?_
            rintro ⟨q', hq', ⟨_, heq⟩⟩
            rw [Slot.entry.injEq] at heq
            exact hapart q' hq' heq.2.2.2.symm
          · exact hothers q hq
    rw [List.map_cons, asFound, backfill]
    split
    · rename_i hnull
      refine hrest (World.StepsWithin.refl _ w) ?_
      rw [Value.eq_null_of_isNull hnull]
      exact h p List.mem_cons_self
    · rename_i hnull
      refine (addEntry_succeeds (Bool.eq_false_iff.mpr hnull) p.1 (h p List.mem_cons_self)).bind ?_
      rintro _ w' ⟨hsteps, hfirst⟩
      exact (hrest hsteps hfirst).bind fun n w'' hend => yields_pure hend

/-- A move in a stored index is a move. -/
theorem moveStored_stored (index : IndexDefinition) (old new id : Value) :
    moveStored layout table index.stored old new id
      = move layout table index.name old new id := by
  rw [moveStored]
  split
  · rename_i hequal
    rw [move, if_pos hequal]
  · rfl

end Index

namespace Engine

variable {engine : Engine}

/-- A change of a row is a move over the indexes. -/
theorem moveEntries_stored (old new : Row) (id : Value) (indexes : List IndexDefinition) :
    engine.moveEntries table old new id (indexes.map IndexDefinition.stored)
      = Index.moveAll engine.layout table (Row.value old) (Row.value new) id indexes := by
  rw [moveEntries, Index.moveAll, forList_map]
  refine forList_congr fun index _ => ?_
  exact Index.moveStored_stored index _ _ id

/-- The entries of a new row are moved from null. -/
theorem addEntries_stored (row : Row) (id : String) (indexes : List IndexDefinition) :
    engine.addEntries table row.toFields id (indexes.map IndexDefinition.stored)
      = Index.moveAll engine.layout table (fun _ => .null) (Row.value row) (.text id) indexes := by
  rw [addEntries, Index.moveAll, forList_map]
  refine forList_congr fun index _ => ?_
  have hfind : Fields.find (Members.toFields row) index.stored.column
      = .ok (Members.get? row index.column) := by
    rw [IndexDefinition.stored, Fields.find_string, Members.get?_toFields]
  rw [hfind]
  exact Index.moveStored_stored index .null _ (.text id)

end Engine

end TableStore
