import TableStore.Proofs.Catalog
import TableStore.Proofs.Engine.Description

/-!
# Reading the Catalog

What statements read before they change anything: the schema of a table and
its indexes. For a store that holds what a description says, the
schema that is read is the declared one, and the indexes are the ones that the
description lists, in the order of their names.

The lemmas come in two forms. Those on `Obeys` hold for every answer that a
described store could give, which is all that an invariant needs, and for every
discipline under which a statement may read. Those on
`Looks` say exactly what is read.

## Main definitions

* `Contents.Declares`: A store that has the schema of a table.
* `Description.Lists`: Indexes of a table, all of them, each once.

## Theorems

* `Catalog.looks_requireSchema`: The declared schema is read.
* `Catalog.looks_indexes`: The indexes of a table are read.
* `Catalog.looks_index?`: The definition of an index is read.
-/

namespace TableStore

open Access

variable {d : Description} {layout : KeyLayout} {table : String} {w : World} {dis : Discipline}

theorem Access.obeys_map {α β : Type} {dis : Discipline} {post : β → Prop} {x : Access α} {f : α → β}
    (hx : x.Obeys dis fun a => post (f a)) : (f <$> x).Obeys dis post :=
  Obeys.bind hx fun _ ha => ha

/-- A store that has the schema of a table. What else there is in the store is left open. -/
structure Contents.Declares (c : Contents) (layout : KeyLayout) (table : String)
    (schema : TableSchema) : Prop where
  wellFormed : schema.WellFormed
  fits : (Slot.schema table).Fits
  stored : ∃ data, schema.toBytes = .ok data
    ∧ c.get? ((Slot.schema table).key layout) = some data

theorem Description.Describes.declares {c : Contents} (h : d.Describes layout c)
    {schema : TableSchema} (ht : d.tables table = some schema) :
    c.Declares layout table schema := by
  rcases h.wellFormed.schema_bytes table schema ht with ⟨data, hbytes⟩
  exact ⟨h.wellFormed.schema_wellFormed table schema ht, h.wellFormed.schema_slot_fits ht, data,
    hbytes, h.schema_stored table schema data ht hbytes⟩

/-- The schema that a store has is read. -/
theorem Contents.Declares.looks_schema? {schema : TableSchema}
    (h : w.store.Declares layout table schema) :
    (Catalog.schema? layout table).Looks w (.ok (some schema.stored)) := by
  rcases h.stored with ⟨data, hbytes, hget⟩
  have hfetch := looks_fetch ((Slot.schema table).key layout) w
  rw [hget] at hfetch
  rw [Catalog.schema?, KeyLayout.schemaKey?_fits h.fits, lift_ok_bind]
  refine hfetch.run_bind.trans ?_
  dsimp only
  rw [StoredSchema.ofBytes_toBytes h.wellFormed.default_regular hbytes]
  rfl

theorem Contents.Declares.looks_requireSchema {schema : TableSchema}
    (h : w.store.Declares layout table schema) :
    (Catalog.requireSchema layout table).Looks w (.ok schema.stored) :=
  h.looks_schema?.run_bind

/-- What is stored at the place of a definition. -/
theorem Description.Describes.get?_definition_iff {c : Contents} (hd : d.Describes layout c)
    {index : String} (hfits : (Slot.definition table index).Fits) {data : Bytes} :
    c.get? ((Slot.definition table index).key layout) = some data
      ↔ ∃ column, d.covers table index = some column
        ∧ data = IndexDefinition.toBytes ⟨index, table, column⟩ := by
  constructor
  · exact fun hget => hd.allows hfits hget
  · rintro ⟨column, hcovers, rfl⟩
    exact hd.definition_stored table index column hcovers

/-- The tables and indexes of a description as a ledger. -/
def Description.ledger (d : Description) : Ledger where
  schemas := d.tables
  indexes table index := (d.covers table index).map fun column => ⟨index, table, column⟩

/-- A store that holds what a description says records its tables and indexes. -/
theorem Description.Describes.records {c : Contents} (hd : d.Describes layout c) :
    d.ledger.Records layout c where
  wellFormed := by
    refine ⟨fun table schema ht => ?_, fun table name index hindex => ?_⟩
    · exact ⟨hd.wellFormed.schema_name table schema ht, hd.wellFormed.schema_slot_fits ht,
        (hd.wellFormed.schema_wellFormed table schema ht).default_regular,
        hd.wellFormed.schema_bytes table schema ht⟩
    · rcases Option.map_eq_some_iff.mp hindex with ⟨column, hcovers, rfl⟩
      exact ⟨hd.wellFormed.definition_slot_fits hcovers, rfl, rfl⟩
  placed key value hget hcarries := by
    rcases hd.binds key value hget hcarries with ⟨slot, hfits, hkey, -⟩
    exact ⟨slot, hfits, hkey⟩
  held slot hfits hdata := by
    refine Option.ext fun data => ?_
    cases slot with
    | schema table =>
      rw [Ledger.bytesAt, Option.bind_eq_some_iff]
      constructor
      · intro hget
        rcases hd.allows hfits hget with ⟨schema, ht, hbytes⟩
        exact ⟨schema, ht, by rw [hbytes]; rfl⟩
      · rintro ⟨schema, ht, hbytes⟩
        rcases hd.wellFormed.schema_bytes table schema ht with ⟨bytes, hstored⟩
        rw [hstored] at hbytes
        rw [← Option.some.inj hbytes]
        exact hd.schema_stored table schema bytes ht hstored
    | definition table index =>
      rw [hd.get?_definition_iff hfits, Ledger.bytesAt, Option.map_eq_some_iff]
      constructor
      · rintro ⟨column, hcovers, rfl⟩
        exact ⟨⟨index, table, column⟩, Option.map_eq_some_iff.mpr ⟨column, hcovers, rfl⟩, rfl⟩
      · rintro ⟨definition, hindex, rfl⟩
        rcases Option.map_eq_some_iff.mp hindex with ⟨column, hcovers, rfl⟩
        exact ⟨column, hcovers, rfl⟩
    -- The account of the catalog is of its own keys only.
    | row table id => exact absurd trivial hdata
    | entry table index value id => exact absurd trivial hdata

namespace Catalog

/-- The schema that a described store gives is the declared one. -/
theorem obeys_schema? (h : d.Serves layout table dis) (hwell : d.WellFormed) (name : String) :
    (schema? layout name).Obeys dis fun found =>
      ∀ stored, found = some stored → ∃ schema, d.tables name = some schema ∧ stored = schema.stored := by
  refine (h.outcome fun key hkey => KeyLayout.schemaKey?_ok hkey).bind ?_
  rintro key ⟨rfl, hfits⟩
  refine (obeys_fetch _).bind fun answer hanswer => ?_
  cases answer with
  | none => exact obeys_pure fun stored hnone => absurd hnone (by simp)
  | some data =>
    rcases (h.binds _ _ (hanswer data rfl)).allows hfits with ⟨schema, ht, hbytes⟩
    dsimp only
    rw [StoredSchema.ofBytes_toBytes (hwell.schema_wellFormed name schema ht).default_regular hbytes]
    refine obeys_map (h.outcome fun stored hstored => ?_)
    intro other hother
    exact ⟨schema, ht, by rw [← Option.some.inj hother, Except.ok.inj hstored]⟩

theorem obeys_requireSchema (h : d.Serves layout table dis) (hwell : d.WellFormed) (name : String) :
    (requireSchema layout name).Obeys dis fun stored =>
      ∃ schema, d.tables name = some schema ∧ stored = schema.stored := by
  refine (obeys_schema? h hwell name).bind fun found hfound => ?_
  cases found with
  | none => exact obeys_fail (h.fails _)
  | some stored => exact obeys_pure (hfound stored rfl)

/-- The declared schema is read. -/
theorem looks_schema? (hw : d.Describes layout w.store) (name : String) :
    (schema? layout name).Looks w (layout.schemaKey? name >>= fun _ =>
      .ok ((d.tables name).map TableSchema.stored)) :=
  hw.records.looks_schema? name

theorem looks_schema?_some (hw : d.Describes layout w.store) {name : String} {schema : TableSchema}
    (ht : d.tables name = some schema) : (schema? layout name).Looks w (.ok (some schema.stored)) :=
  (hw.declares ht).looks_schema?

theorem looks_requireSchema (hw : d.Describes layout w.store) {name : String} {schema : TableSchema}
    (ht : d.tables name = some schema) : (requireSchema layout name).Looks w (.ok schema.stored) :=
  (hw.declares ht).looks_requireSchema

end Catalog

/-- Indexes of a table, all of them and each once. -/
structure Description.Lists (d : Description) (table : String) (indexes : List IndexDefinition) :
    Prop where
  table_eq : ∀ index ∈ indexes, index.table = table
  covers : ∀ index ∈ indexes, d.covers table index.name = some index.column
  complete : ∀ name column, d.covers table name = some column →
    ∃ index ∈ indexes, index.name = name ∧ index.column = column
  nodup : (indexes.map IndexDefinition.name).Nodup

theorem Description.Lists.of_ledger (hwell : d.ledger.WellFormed) {list : List IndexDefinition}
    (h : d.ledger.Lists table list) : d.Lists table list where
  table_eq index hindex := (hwell.indexes table index.name index ((h.mem_iff index).mp hindex)).table
  covers index hindex := by
    rcases Option.map_eq_some_iff.mp ((h.mem_iff index).mp hindex) with ⟨column, hcovers, heq⟩
    rw [hcovers, ← heq]
  complete name column hcovers :=
    ⟨⟨name, table, column⟩, (h.mem_iff _).mpr (Option.map_eq_some_iff.mpr ⟨column, hcovers, rfl⟩),
      rfl, rfl⟩
  nodup := by
    rw [List.Nodup, List.pairwise_map]
    refine h.ordered.imp fun hlt heq => ?_
    rw [heq] at hlt
    exact String.lt_irrefl _ hlt

namespace Catalog

/-- What a scan for definitions finds are definitions of the description. -/
theorem exists_definitions {name : String} (hname : Key.fits (Text.encode name) = true)
    {found : List Entry} (h : ∀ e ∈ found, Bytes.carries (layout.indexMetaPrefix name) e.1 = true
      ∧ d.Binds layout e.1 e.2) :
    ∃ indexes : List IndexDefinition, found = indexes.map (definitionEntry layout)
      ∧ ∀ index ∈ indexes, index.table = name ∧ d.covers name index.name = some index.column
        ∧ (Slot.definition name index.name).Fits := by
  refine exists_map_of_forall ?_
  rintro ⟨key, value⟩ he
  rcases h _ he with ⟨hcarries, hbinds⟩
  rcases hbinds (KeyLayout.carries_root_of_indexMetaPrefix hcarries) with ⟨slot, hfits, rfl, hallows⟩
  rcases (Slot.carries_indexMetaPrefix hfits hname).mp hcarries with ⟨index, rfl⟩
  rcases hallows with ⟨column, hcovers, rfl⟩
  exact ⟨⟨index, name, column⟩, ⟨rfl, hcovers, hfits⟩, rfl⟩

/-- The indexes that a described store gives are among those it lists. -/
theorem obeys_indexes (h : d.Serves layout table dis) (name : String) :
    (indexes layout name).Obeys dis fun found =>
      ∃ list : List IndexDefinition, found = list.map IndexDefinition.stored
        ∧ ∀ index ∈ list, index.table = name ∧ d.covers name index.name = some index.column
          ∧ (Slot.definition name index.name).Fits := by
  refine Obeys.bind (h.outcome fun start hstart => Key.ofComponents_ok hstart) ?_
  rintro start ⟨rfl, hfits⟩
  refine (obeys_entries _).bind fun found hfound => ?_
  have hbinds : ∀ e ∈ found, Bytes.carries (layout.indexMetaPrefix name) e.1 = true
      ∧ d.Binds layout e.1 e.2 := fun e he => ⟨(hfound e he).1, h.binds _ _ (hfound e he).2⟩
  rcases exists_definitions (hfits _ List.mem_cons_self) hbinds with ⟨list, rfl, hlist⟩
  refine h.outcome fun result hresult => ?_
  rw [definitionsOf_map fun index hindex => ⟨(hlist index hindex).1, (hlist index hindex).2.2⟩,
    ok_bind, sortByName_stored] at hresult
  refine ⟨inOrder list, (Except.ok.inj hresult).symm, fun index hindex => ?_⟩
  exact hlist index (mem_inOrder.mp hindex)

/-- The indexes of a table are the same in every store that holds what the
    description says. -/
theorem exists_indexes (hw : d.Describes layout w.store) {name : String}
    (hname : Key.fits (Text.encode name) = true) :
    ∃ list, d.Lists name list ∧ ∀ v : World, d.Describes layout v.store →
      (indexes layout name).Looks v (.ok (list.map IndexDefinition.stored)) := by
  rcases hw.records.exists_indexes hname with ⟨list, hlists, hlooks⟩
  exact ⟨list, .of_ledger hw.records.wellFormed hlists, fun v hv => hlooks v hv.records⟩

/-- The indexes of a table are read. -/
theorem looks_indexes (hw : d.Describes layout w.store) {name : String}
    (hname : Key.fits (Text.encode name) = true) :
    ∃ list, d.Lists name list
      ∧ (indexes layout name).Looks w (.ok (list.map IndexDefinition.stored)) := by
  rcases exists_indexes hw hname with ⟨list, hlists, hlooks⟩
  exact ⟨list, hlists, hlooks w hw⟩

/-- The definition of an index is read. -/
theorem looks_index? (hw : d.Describes layout w.store) (name index : String) :
    (index? layout name index).Looks w (layout.indexMetaKey? name index >>= fun _ =>
      .ok ((d.covers name index).map fun column =>
        (IndexDefinition.mk index name column).stored)) := by
  have hlooks := hw.records.looks_index? name index
  rw [Description.ledger, Option.map_map] at hlooks
  exact hlooks

end Catalog

end TableStore
