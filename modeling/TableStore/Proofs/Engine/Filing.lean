import TableStore.Proofs.Engine.Changes
import TableStore.Proofs.Engine.Manipulation

/-!
# Filing New Rows

An insertion that fails has stored nothing: everything that can be refused is
refused before the row is written, and afterwards only a limit can stop it.
When the row has been filed under an id that no row had, its entries are added,
and the indexes agree with the rows again.

What is filed depends on the schema of the table alone. Nothing needs to be known
of the rest of the store for that, and so it is said of any store which has the
schema.

## Main definitions

* `Contents.Files`: A row that has been filed.

## Theorems

* `Engine.fileRow_yields`, `fileRow_describes`: What filing a row leaves.
* `Engine.insert_follows`: An insertion and its entries.
-/

namespace TableStore

open Access

variable {d : Description} {table : String} {v w : World}

/-- The value of the primary key of a row, unless it is null. -/
theorem primaryValue?_stored (schema : TableSchema) (members : Row) :
    primaryValue? schema.stored (Members.toFields members)
      = .ok (schema.primaryKey.bind fun key =>
        (Members.get? members key).filter fun v => !v.isNull) := by
  unfold primaryValue? TableSchema.stored
  rcases schema.primaryKey with _ | key
  · rfl
  · dsimp only [Option.map_some, Option.getD_some, Option.bind_some]
    rw [Fields.find_string, ok_bind, Members.get?_toFields]

/-- The id that is added to a row does not change the value of its primary key. -/
theorem primaryValue?_set {schema : TableSchema} (hwell : schema.WellFormed)
    (hids : schema.KeepsIds) (members : Row) (v : Value) :
    primaryValue? schema.stored (Members.toFields (Members.set members rowIdMember v))
      = primaryValue? schema.stored (Members.toFields members) := by
  rw [primaryValue?_stored, primaryValue?_stored]
  rcases hkey : schema.primaryKey with _ | key
  · rfl
  · have hne : key ≠ rowIdMember := fun heq => hids (heq ▸ hwell.key_mem key hkey)
    rw [Option.bind_some, Option.bind_some, Members.get?_set, if_neg hne]

/-- A row that has been filed: under an id that no row had, and filled with what is supplied
    for its columns and with the defaults of the others, all in the form of the columns. -/
structure Contents.Files (c : Contents) (layout : KeyLayout) (table : String)
    (schema : TableSchema) (supplied : Fields Value) (id : String) (row : Row) (data : Bytes) :
    Prop where
  fits : (Slot.row table (Text.encode id)).Fits
  fresh : c.get? ((Slot.row table (Text.encode id)).key layout) = none
  accepts : schema.Accepts id row
  filled : ∀ column ∈ schema.columns, ((supplied.get? (.text column.name)).getD
    column.default).coerce column.typeName column.name = .ok (Row.value row column.name)
  read : Row.ofBytes data = .ok row

/-- A row that has been filed is filled with the values that were supplied. -/
theorem Contents.Files.fills {c : Contents} {layout : KeyLayout} {schema : TableSchema}
    {supplied : Fields Value} {id : String} {row : Row} {data : Bytes}
    (h : c.Files layout table schema supplied id row data) (hwell : schema.WellFormed)
    {columns : Option (List String)} {values : List Value}
    (hnodup : ∀ names, columns = some names → names.Nodup)
    (hlength : (columns.getD schema.names).length = values.length)
    (hsupplied : Fields.ofList (((columns.getD schema.names).map Json.string).zip values)
      = .ok supplied) :
    schema.Fills ((columns.getD schema.names).zip values) id row := by
  rw [(ofList_supplied (hwell.nodup_getD hnodup) hlength).1, Except.ok.injEq] at hsupplied
  refine ⟨h.accepts.names, h.accepts.filed, fun column hcolumn => ?_⟩
  have hfilled := h.filled column hcolumn
  rwa [← hsupplied, Members.get?_toFields] at hfilled

namespace Engine

variable {engine : Engine}

/-- An id that is drawn is free. -/
theorem freeId_yields (draws : Nat) :
    (engine.freeId table draws).Yields w (fun _ w' => w'.store = w.store) fun id w' =>
      w'.store = w.store ∧ (Slot.row table (Text.encode id)).Fits
        ∧ w.store.get? ((Slot.row table (Text.encode id)).key engine.layout) = none := by
  induction draws generalizing w with
  | zero => exact yields_fail rfl
  | succ draws ih =>
    rw [freeId]
    -- A draw changes the source of ids only.
    have hdraw : (drawId table).Yields w (fun _ w' => w'.store = w.store)
        fun _ w' => w'.store = w.store := by
      rw [Yields, drawId_on]
      rcases (w.ids.next table).1 with fault | id
      · exact Or.inl ⟨fault, _, rfl, rfl⟩
      · exact Or.inr ⟨id, _, rfl, rfl⟩
    refine hdraw.bind fun id w₁ hw₁ => ?_
    refine Yields.outcome (fun _ _ => hw₁) fun key hkey => ?_
    rcases KeyLayout.rowKey?_ok hkey with ⟨rfl, hfits⟩
    refine Yields.look (looks_fetch _ w₁) ?_
    rcases hget : w₁.store.get? ((Slot.row table (Text.encode id)).key engine.layout) with _ | data
    · exact yields_pure ⟨hw₁, hfits, by rw [← hw₁]; exact hget⟩
    · have hrest := @ih w₁
      rwa [hw₁] at hrest

theorem newRowId_yields (key : Option Value) :
    (engine.newRowId table key).Yields w (fun _ w' => w'.store = w.store) fun id w' =>
      w'.store = w.store ∧ (Slot.row table (Text.encode id)).Fits
        ∧ w.store.get? ((Slot.row table (Text.encode id)).key engine.layout) = none := by
  cases key with
  | none => exact Yields.look (looks_keyCount w) (freeId_yields _)
  | some v =>
    rw [newRowId]
    split
    · exact yields_fail rfl
    · refine Yields.outcome (fun _ _ => rfl) fun key hkey => ?_
      rcases KeyLayout.rowKey?_ok hkey with ⟨rfl, hfits⟩
      refine Yields.look (looks_fetch _ w) ?_
      rcases hget : w.store.get? ((Slot.row table (Text.encode v.toText)).key engine.layout)
        with _ | data
      · exact yields_pure ⟨rfl, hfits, hget⟩
      · exact yields_fail rfl

/-- What filing a row leaves: nothing new if it fails, and else the row under an
    id that no row had. Only the search for the id depends on other rows, so where it
    ends with the same id the same row is filed. -/
theorem fileRow_files {schema : TableSchema} (h : w.store.Declares engine.layout table schema)
    (hids : schema.KeepsIds) {columns : Option (List String)} {values : List Value}
    (hvalues : ∀ v ∈ values, v.IsDenoted) :
    (engine.fileRow table columns values).Yields w (fun _ w' => w'.store = w.store) fun filed w' =>
      ∃ supplied row data,
        (columns.getD schema.names).length = values.length
        ∧ Fields.ofList (((columns.getD schema.names).map Json.string).zip values) = .ok supplied
        ∧ filed.1 = Members.toFields row
        ∧ w.store.Files engine.layout table schema supplied filed.2 row data
        ∧ (∃ key w₁, primaryValue? schema.stored filed.1 = .ok key
          ∧ (engine.newRowId table key).on w = (.ok filed.2, w₁)
          ∧ ∀ v v₁ : World, v.store.Declares engine.layout table schema →
            (engine.newRowId table key).on v = (.ok filed.2, v₁) →
            (engine.fileRow table columns values).on v = (.ok filed, { v₁ with
              store := v₁.store.insert ((Slot.row table (Text.encode filed.2)).key engine.layout) data }))
        ∧ w'.store
          = w.store.insert ((Slot.row table (Text.encode filed.2)).key engine.layout) data := by
  have hwell := h.wellFormed
  rcases h.stored with ⟨bytes, hbytes, -⟩
  refine Yields.look h.looks_requireSchema ?_
  dsimp only
  rw [TableSchema.columnNames_getD]
  split
  · exact yields_fail rfl
  · rename_i hlength
    rw [not_ne_iff, List.length_map] at hlength
    refine Yields.outcome (fun _ _ => rfl) fun supplied hsupplied => ?_
    refine Yields.outcome (fun _ _ => rfl) fun _ hchecked => ?_
    refine Yields.outcome (fun _ _ => rfl) fun built hbuilt => ?_
    refine Yields.outcome (fun _ _ => rfl) fun found hfound => ?_
    refine (newRowId_yields found).record.bind ?_
    rintro id w₁ ⟨⟨hstore, hfits, hnone⟩, hdrawn⟩
    have hregular := Fields.regular_of_ofList (regular_of_zip hvalues) hsupplied
    have haccepts := accepts_of_buildRow hwell hids hbytes hregular hbuilt id
    rcases fills_of_buildRow hwell hbytes hregular hbuilt with ⟨members, rfl, hfills⟩
    rw [Members.set_toFields, Members.toMembers_toFields] at haccepts ⊢
    refine Yields.outcome (fun _ _ => hstore) fun key hkey => ?_
    rcases KeyLayout.rowKey?_ok hkey with ⟨rfl, -⟩
    refine Yields.outcome (fun _ _ => hstore) fun data hdata => ?_
    have hread := (FiledRow.of_toBytes hwell hids hfits haccepts hdata).read
    rw [Row.bytes_eq hdata] at hread
    refine Yields.store (yields_pure ⟨supplied, _, data, hlength, hsupplied, rfl,
      ⟨hfits, hnone, haccepts, fun column hcolumn => ?_, hread⟩,
      ⟨found, w₁, ?_, hdrawn, fun v v₁ hv hsame => ?_⟩, ?_⟩)
    · -- The member that is added last is none of the columns.
      have hne : column.name ≠ rowIdMember := fun heq =>
        hids (heq ▸ List.mem_map.mpr ⟨column, hcolumn, rfl⟩)
      rw [Row.value_set, if_neg hne]
      exact filled_of_fills hwell hfills column hcolumn
    · rw [primaryValue?_set hwell hids]
      exact hfound
    · rw [fileRow, hv.looks_requireSchema.run_bind]
      dsimp only
      rw [TableSchema.columnNames_getD, if_neg (by rw [List.length_map, not_not]; exact hlength),
        hsupplied, lift_ok_bind, hchecked, lift_ok_bind, hbuilt, lift_ok_bind, hfound, lift_ok_bind,
        run_bind_ok hsame, hkey, lift_ok_bind, Members.set_toFields, Members.toMembers_toFields,
        hdata]
      rfl
    · rw [hstore]

theorem fileRow_yields (hw : d.Describes engine.layout w.store) {schema : TableSchema}
    (ht : d.tables table = some schema) (hids : schema.KeepsIds) {columns : Option (List String)}
    {values : List Value} (hvalues : ∀ v ∈ values, v.IsDenoted) :
    (engine.fileRow table columns values).Yields w (fun _ w' => w'.store = w.store) fun filed w' =>
      ∃ row data, filed.1 = Members.toFields row ∧ (Slot.row table (Text.encode filed.2)).Fits
        ∧ w.store.get? ((Slot.row table (Text.encode filed.2)).key engine.layout) = none
        ∧ Row.ofBytes data = .ok row ∧ w'.store
          = w.store.insert ((Slot.row table (Text.encode filed.2)).key engine.layout) data := by
  refine (fileRow_files (hw.declares ht) hids hvalues).imp (fun _ _ hstore => hstore) ?_
  rintro filed w' ⟨supplied, row, data, -, -, hrow, hfiles, -, hstore⟩
  exact ⟨row, data, hrow, hfiles.fits, hfiles.fresh, hfiles.read, hstore⟩

/-- The entries of a row that has been filed. -/
theorem addEntries_succeeds {indexes : List IndexDefinition}
    (hconcerned : d.Concerns table (fun _ => True) indexes) {v : World}
    (hindexed : d.Indexed engine.layout v.store) {name : String} {row : Row} {data : Bytes}
    (hfits : (Slot.row table (Text.encode name)).Fits)
    (hnone : v.store.get? ((Slot.row table (Text.encode name)).key engine.layout) = none)
    (hread : Row.ofBytes data = .ok row)
    (hstore : w.store = v.store.insert ((Slot.row table (Text.encode name)).key engine.layout) data) :
    (engine.addEntries table (Members.toFields row) name
      (indexes.map IndexDefinition.stored)).Succeeds w fun _ w' =>
        w.StepsWithin engine.layout (Index.IsEntryAmong table indexes (Text.encode name)) w'
          ∧ d.Indexed engine.layout w'.store := by
  have hfiled : v.store.SameExcept engine.layout (Slot.IsAbout table (Text.encode name)) w.store := by
    rw [hstore]
    exact Contents.SameExcept.insert hfits (Or.inl rfl) data
  -- No row had the id, so no index has an entry with it.
  have hold : ∀ index column, d.covers table index = some column →
      w.store.EntriesOf engine.layout table index (Text.encode name) .null := by
    intro index column hcovers
    have hbefore := hindexed table index column hcovers (Text.encode name)
    rw [Contents.cell_of_none hnone] at hbefore
    refine hbefore.congr fun value hentry => ?_
    rw [hstore]
    exact Contents.get?_insert_other _ _ (Slot.key_ne hentry hfits (by simp))
  rw [addEntries_stored]
  refine (Index.moveAll_ends hconcerned name hold
    fun _ hchanged => absurd trivial hchanged).imp (fun _ _ hf => hf) ?_
  rintro _ w' ⟨hsteps, hentries⟩
  have hget : w'.store.get? ((Slot.row table (Text.encode name)).key engine.layout) = some data := by
    rw [hsteps.store.get?_slot hfits, hstore, Contents.get?_insert_self]
    rintro ⟨_, -, ⟨_, heq⟩⟩
    exact absurd heq (by simp)
  refine ⟨hsteps, hindexed.of_row
    (hfiled.trans (hsteps.store.imp fun _ => Slot.isAbout_of_isEntryAmong)) ?_⟩
  intro index column hcovers
  rw [Contents.cell_of_get? hget hread]
  exact hentries index column hcovers

/-- Filing a row leaves a store that the description still fits. -/
theorem fileRow_describes (hw : d.Describes engine.layout w.store) {columns : Option (List String)}
    {values : List Value} (hvalues : ∀ v ∈ values, v.IsDenoted) :
    d.Describes engine.layout ((engine.fileRow table columns values).on w).2.store := by
  have hplain : (Statement.insert table columns values).Plain := hvalues
  have hobeys : (engine.fileRow table columns values).Obeys (d.changes engine.layout table)
      fun _ => True :=
    obeys_fileRow (d.changes_serves _ table) hw.wellFormed hvalues fun _ ht =>
      Statement.writesWithin_changes hw.wellFormed hplain ht
  exact (hobeys.describes hw).1

/-- An insertion does what filing the row does, and leaves all indexes in
    agreement with the rows. -/
theorem insert_follows (hw : d.Describes engine.layout w.store)
    (hindexed : d.Indexed engine.layout w.store) {schema : TableSchema}
    (ht : d.tables table = some schema) (hids : schema.KeepsIds) {columns : Option (List String)}
    {values : List Value} (hvalues : ∀ v ∈ values, v.IsDenoted)
    (hfile : (engine.fileRow table columns values).Follows engine.layout
      (engine.fileRow table columns values) w v (fun _ => True)
      fun _ w' v' => v'.Alike engine.layout w') :
    (engine.insert table columns values).Follows engine.layout
      (engine.fileRow table columns values >>= fun _ => pure { affected := 1 }) w v
      (fun w' => d.Indexed engine.layout w'.store)
      fun _ w' v' => v'.Alike engine.layout w' ∧ d.Indexed engine.layout w'.store := by
  have hyields := @fileRow_yields d table w engine hw schema ht hids columns values hvalues
  rcases hfile with ⟨fault, w₁, hx, hlimit⟩ | ⟨fault, w₁, v₁, hx, hy, halike, -⟩ |
    ⟨filed, w₁, v₁, hx, hy, halike⟩
  · exact Or.inl ⟨fault, w₁, run_bind_error hx, hlimit⟩
  · -- Nothing was filed, so the indexes agree with the rows as before.
    refine Or.inr (Or.inl ⟨fault, w₁, v₁, run_bind_error hx, run_bind_error hy, halike, ?_⟩)
    rw [Yields, hx] at hyields
    rcases hyields with ⟨_, w', hrun, hstore⟩ | ⟨_, w', hrun, -⟩
    · rw [(Prod.mk.inj hrun).2]
      rw [hstore]
      exact hindexed
    · exact absurd (Prod.mk.inj hrun).1 (by simp)
  · -- The row was filed, and its entries are what is missing.
    have hdescribes := @fileRow_describes d table w engine hw columns values hvalues
    rw [hx] at hdescribes
    rw [Yields, hx] at hyields
    rcases hyields with ⟨_, w', hrun, -⟩ | ⟨_, w', hrun, row, data, hrow, hfits, hnone, hread, hstore⟩
    · exact absurd (Prod.mk.inj hrun).1 (by simp)
    · rw [Prod.mk.injEq, Except.ok.injEq] at hrun
      rcases hrun with ⟨rfl, rfl⟩
      rcases filed with ⟨fields, id⟩
      rcases Catalog.looks_indexes hdescribes hfits.table_fits with ⟨indexes, hlists, hlooks⟩
      rw [Follows, insert, run_bind_ok hx, run_bind_ok hy]
      dsimp only at hrow ⊢
      rw [hrow]
      refine Follows.look hlooks (Follows.step
        (addEntries_succeeds hlists.concerns hindexed hfits hnone hread hstore) ?_)
      rintro _ w₂ ⟨hsteps, hindexed₂⟩
      exact follows_pure
        ⟨halike.of_steps hsteps fun _ => Slot.isOfIndex_of_isEntryAmong, hindexed₂⟩

end Engine

end TableStore
