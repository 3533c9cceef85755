import TableStore.Catalog
import TableStore.Proofs.Key.Families
import TableStore.Proofs.Key.Reading
import TableStore.Proofs.Schema
import TableStore.Proofs.Store.Run

/-!
# The Catalog as a Map

The catalog has no memory of its own. Schemas and definitions of indexes are kept in the
store, among rows and entries whose keys are built from names, values and ids of any content,
and the names of the tables are recovered by taking scanned keys apart. To those who use it,
it is two maps all the same: from tables to schemas, and from the indexes of each table to
their definitions.

A ledger is such a pair of maps, kept outside of any store by noting down each change that
does not fail. A store records a ledger if it has the bytes of the ledger at the places for
schemas and definitions and no key under the root that is not that of a place. This is kept
by every change, since a change concerns one place, and different places have different keys.
Whoever reads the store then finds what the ledger says.

## Main definitions

* `Ledger`: The schemas and the definitions that are live.
* `StoreChange`: Changes to the catalog, to rows and to entries.
* `StoreChange.Acts`: A change fails, or it writes to its place.
* `Contents.Placed`: A store whose keys under the root are those of places.
* `Ledger.Records`: A store that records a ledger.
* `Recorded`: The ledger and the store after any number of changes.

## Theorems

* `Ledger.Records.perform`: Every change is recorded.
* `Ledger.Records.looks_schema?`, `looks_index?`, `looks_tables`, `exists_indexes`: What is
  read is what the ledger says.
* `Recorded.answers`: The four readers after any number of changes.
-/

namespace TableStore

open Access

variable {layout : KeyLayout} {table index : String} {c c' : Contents} {w : World}

/-- The schemas of tables and the definitions of their indexes, as far as they have been put
    and not been deleted since. -/
structure Ledger where
  schemas : String → Option TableSchema
  indexes : String → String → Option IndexDefinition

/-- Changes of a store that uses one layout: to the catalog, and to the keys of rows and of
    entries with any content. -/
inductive StoreChange where
  | putSchema (schema : TableSchema)
  | deleteSchema (table : String)
  | putIndex (index : IndexDefinition)
  | deleteIndex (table index : String)
  | putRow (table : String) (id data : Bytes)
  | deleteRow (table : String) (id : Bytes)
  | putEntry (table index : String) (value : Value) (id data : Bytes)
  | deleteEntry (table index : String) (value : Value) (id : Bytes)

namespace StoreChange

/-- What a change does. -/
def perform (layout : KeyLayout) : StoreChange → Access Unit
  | putSchema schema => Catalog.putSchema layout schema
  | deleteSchema table => Catalog.deleteSchema layout table
  | putIndex index => Catalog.putIndex layout index
  | deleteIndex table index => Catalog.deleteIndex layout table index
  | putRow table id data => do
    let key ← lift (layout.rowKey? table id)
    store key data
  | deleteRow table id => do
    let key ← lift (layout.rowKey? table id)
    remove key
  | putEntry table index value id data => do
    let key ← lift (layout.indexKey table index value id)
    store key data
  | deleteEntry table index value id => do
    let key ← lift (layout.indexKey table index value id)
    remove key

/-- A change that puts no schema with other defaults than null, truth values, numbers and
    texts. A schema with bytes for a default is refused in any case. -/
def IsRegular : StoreChange → Prop
  | putSchema schema => ∀ column ∈ schema.columns, column.default.IsRegular
  | _ => True

/-- The one place that a change concerns, and what is there afterwards. -/
inductive Writes : StoreChange → Slot → Option Bytes → Prop
  | putSchema {schema : TableSchema} {data : Bytes} (h : schema.toBytes = .ok data) :
    Writes (putSchema schema) (.schema schema.name) (some data)
  | deleteSchema (table : String) : Writes (deleteSchema table) (.schema table) none
  | putIndex (index : IndexDefinition) :
    Writes (putIndex index) (.definition index.table index.name) (some index.toBytes)
  | deleteIndex (table index : String) :
    Writes (deleteIndex table index) (.definition table index) none
  | putRow (table : String) (id data : Bytes) :
    Writes (putRow table id data) (.row table id) (some data)
  | deleteRow (table : String) (id : Bytes) : Writes (deleteRow table id) (.row table id) none
  | putEntry {value : Value} {bytes : Bytes} (h : Key.encodeIndexValue value = .ok bytes)
    (table index : String) (id data : Bytes) :
    Writes (putEntry table index value id data) (.entry table index bytes id) (some data)
  | deleteEntry {value : Value} {bytes : Bytes} (h : Key.encodeIndexValue value = .ok bytes)
    (table index : String) (id : Bytes) :
    Writes (deleteEntry table index value id) (.entry table index bytes id) none

/-- A change fails and leaves the store as it is, or it writes to its place. -/
def Acts (change : StoreChange) (layout : KeyLayout) (w : World) : Prop :=
  (∃ fault, (change.perform layout).on w = (.error fault, w))
    ∨ ∃ slot answer c, change.Writes slot answer ∧ slot.Fits
      ∧ (change.perform layout).on w = (.ok (), { w with store := c })
      ∧ ∀ key, c.get? key = if key = slot.key layout then answer else w.store.get? key

section

variable {change : StoreChange} {layout : KeyLayout} {w : World} {r : Except Fault Bytes}

/-- A change that stores bytes under the key of its place. -/
theorem acts_store {data : Bytes}
    (hperform : change.perform layout = (do
      let key ← lift r
      store key data))
    (hplace : ∀ key, r = .ok key →
      ∃ slot, key = slot.key layout ∧ slot.Fits ∧ change.Writes slot (some data)) :
    change.Acts layout w := by
  rcases r with fault | key
  · exact Or.inl ⟨fault, by rw [hperform]; rfl⟩
  · rcases hplace key rfl with ⟨slot, rfl, hfits, hwrites⟩
    exact Or.inr ⟨slot, some data, _, hwrites, hfits, by rw [hperform]; rfl,
      (Contents.get?_insert _ _ · _)⟩

/-- A change that removes the key of its place. -/
theorem acts_remove
    (hperform : change.perform layout = (do
      let key ← lift r
      remove key))
    (hplace : ∀ key, r = .ok key →
      ∃ slot, key = slot.key layout ∧ slot.Fits ∧ change.Writes slot none) :
    change.Acts layout w := by
  rcases r with fault | key
  · exact Or.inl ⟨fault, by rw [hperform]; rfl⟩
  · rcases hplace key rfl with ⟨slot, rfl, hfits, hwrites⟩
    exact Or.inr ⟨slot, none, _, hwrites, hfits, by rw [hperform]; rfl,
      (Contents.get?_erase _ · _)⟩

end

/-- Every change acts, whatever the store holds. -/
theorem acts (change : StoreChange) (layout : KeyLayout) (w : World) :
    change.Acts layout w := by
  cases change with
  | putSchema schema =>
    rcases hdata : schema.toBytes with fault | data
    · -- The key is built before the bytes are written, and either may fail.
      rcases hkey : layout.schemaKey? schema.name with other | key
      · exact Or.inl ⟨other, by rw [perform, Catalog.putSchema, hkey]; rfl⟩
      · exact Or.inl ⟨fault, by rw [perform, Catalog.putSchema, hkey, hdata]; rfl⟩
    · refine acts_store (by rw [perform, Catalog.putSchema, hdata]; rfl) fun key hkey => ?_
      rcases KeyLayout.schemaKey?_ok hkey with ⟨hsame, hfits⟩
      exact ⟨_, hsame, hfits, .putSchema hdata⟩
  | deleteSchema table =>
    refine acts_remove rfl fun key hkey => ?_
    rcases KeyLayout.schemaKey?_ok hkey with ⟨hsame, hfits⟩
    exact ⟨_, hsame, hfits, .deleteSchema table⟩
  | putIndex index =>
    refine acts_store rfl fun key hkey => ?_
    rcases KeyLayout.indexMetaKey?_ok hkey with ⟨hsame, hfits⟩
    exact ⟨_, hsame, hfits, .putIndex index⟩
  | deleteIndex table index =>
    refine acts_remove rfl fun key hkey => ?_
    rcases KeyLayout.indexMetaKey?_ok hkey with ⟨hsame, hfits⟩
    exact ⟨_, hsame, hfits, .deleteIndex table index⟩
  | putRow table id data =>
    refine acts_store rfl fun key hkey => ?_
    rcases KeyLayout.rowKey?_ok hkey with ⟨hsame, hfits⟩
    exact ⟨_, hsame, hfits, .putRow table id data⟩
  | deleteRow table id =>
    refine acts_remove rfl fun key hkey => ?_
    rcases KeyLayout.rowKey?_ok hkey with ⟨hsame, hfits⟩
    exact ⟨_, hsame, hfits, .deleteRow table id⟩
  | putEntry table index value id data =>
    refine acts_store rfl fun key hkey => ?_
    rcases KeyLayout.indexKey_ok hkey with ⟨bytes, hbytes, hsame, hfits⟩
    exact ⟨_, hsame, hfits, .putEntry hbytes table index id data⟩
  | deleteEntry table index value id =>
    refine acts_remove rfl fun key hkey => ?_
    rcases KeyLayout.indexKey_ok hkey with ⟨bytes, hbytes, hsame, hfits⟩
    exact ⟨_, hsame, hfits, .deleteEntry hbytes table index id⟩

end StoreChange

/-- A schema that can be stored for a table. -/
structure TableSchema.BelongsTo (table : String) (schema : TableSchema) : Prop where
  name : schema.name = table
  fits : (Slot.schema table).Fits
  regular : ∀ column ∈ schema.columns, column.default.IsRegular
  bytes : ∃ data, schema.toBytes = .ok data

theorem TableSchema.BelongsTo.defaultKept {schema : TableSchema} (h : schema.BelongsTo table) :
    ∀ column ∈ schema.columns, column.DefaultKept := by
  rcases h.bytes with ⟨data, hdata⟩
  exact fun column hcolumn =>
    ⟨(h.regular column hcolumn).scalar, (storable_of_toBytes hdata).1 column hcolumn⟩

/-- A definition that can be stored for a table under a name. -/
structure IndexDefinition.BelongsTo (table name : String) (index : IndexDefinition) : Prop where
  fits : (Slot.definition table name).Fits
  table : index.table = table
  name : index.name = name

namespace Ledger

/-- Nothing has been put. -/
def empty : Ledger :=
  ⟨fun _ => none, fun _ _ => none⟩

/-- The ledger after a change with an outcome. A change that fails is not noted down. -/
def after (ledger : Ledger) : StoreChange → Except Fault Unit → Ledger
  | .putSchema schema, .ok _ =>
    { ledger with schemas := fun t => if t = schema.name then some schema else ledger.schemas t }
  | .deleteSchema table, .ok _ =>
    { ledger with schemas := fun t => if t = table then none else ledger.schemas t }
  | .putIndex index, .ok _ =>
    { ledger with indexes := fun t i =>
        if t = index.table ∧ i = index.name then some index else ledger.indexes t i }
  | .deleteIndex table index, .ok _ =>
    { ledger with indexes := fun t i =>
        if t = table ∧ i = index then none else ledger.indexes t i }
  | _, _ => ledger

theorem after_error (ledger : Ledger) (change : StoreChange) (fault : Fault) :
    ledger.after change (.error fault) = ledger := by
  cases change <;> rfl

/-- The bytes of a schema or a definition at its place. -/
def bytesAt (ledger : Ledger) : Slot → Option Bytes
  | .schema table => (ledger.schemas table).bind fun schema => schema.toBytes.toOption
  | .definition table index => (ledger.indexes table index).map IndexDefinition.toBytes
  | _ => none

/-- A ledger in which schemas and definitions are under their own names and can be stored. -/
structure WellFormed (ledger : Ledger) : Prop where
  schemas : ∀ table schema, ledger.schemas table = some schema → schema.BelongsTo table
  indexes : ∀ table name index, ledger.indexes table name = some index →
    index.BelongsTo table name

variable {ledger : Ledger} {change : StoreChange} {slot other : Slot} {answer : Option Bytes}

/-- A schema or a definition is noted down with the bytes that it is written in. -/
theorem bytesAt_after_self (ledger : Ledger) (h : change.Writes slot answer)
    (hdata : ¬slot.IsData) : (ledger.after change (.ok ())).bytesAt slot = answer := by
  cases h with
  | putSchema h => simp [after, bytesAt, h, Except.toOption]
  | deleteSchema table => simp [after, bytesAt]
  | putIndex index => simp [after, bytesAt]
  | deleteIndex table index => simp [after, bytesAt]
  | _ => exact absurd trivial hdata

/-- Nothing else is changed by what is noted down. -/
theorem bytesAt_after_other (ledger : Ledger) (h : change.Writes slot answer) (hne : other ≠ slot) :
    (ledger.after change (.ok ())).bytesAt other = ledger.bytesAt other := by
  have hschemas : ∀ {table : String} {found : Option TableSchema}, other ≠ .schema table →
      bytesAt { ledger with schemas := fun t => if t = table then found else ledger.schemas t } other
        = ledger.bytesAt other := by
    intro table found hother
    cases other with
    | schema t =>
      have ht : t ≠ table := fun heq => hother (congrArg Slot.schema heq)
      simp only [bytesAt, if_neg ht]
    | _ => rfl
  have hindexes : ∀ {table index : String} {found : Option IndexDefinition},
      other ≠ .definition table index →
      bytesAt { ledger with
        indexes := fun t i => if t = table ∧ i = index then found else ledger.indexes t i } other
        = ledger.bytesAt other := by
    intro table index found hother
    cases other with
    | definition t i =>
      have hti : ¬(t = table ∧ i = index) := fun heq => hother (by rw [heq.1, heq.2])
      simp only [bytesAt, if_neg hti]
    | _ => rfl
  -- A change of rows or entries leaves the ledger as it is.
  cases h with
  | putSchema h => exact hschemas hne
  | deleteSchema table => exact hschemas hne
  | putIndex index => exact hindexes hne
  | deleteIndex table index => exact hindexes hne
  | _ => rfl

/-- What is noted down is under its own name and can be stored. -/
theorem WellFormed.after (hwell : ledger.WellFormed) (h : change.Writes slot answer)
    (hfits : slot.Fits) (hregular : change.IsRegular) : (ledger.after change (.ok ())).WellFormed := by
  cases h with
  | @putSchema schema data h =>
    refine ⟨fun t found hfound => ?_, hwell.indexes⟩
    rcases ite_eq_iff.mp hfound with ⟨rfl, hschema⟩ | ⟨-, hfound⟩
    · rw [← Option.some.inj hschema]
      exact ⟨rfl, hfits, hregular, data, h⟩
    · exact hwell.schemas t found hfound
  | deleteSchema table =>
    exact ⟨fun t found hfound => hwell.schemas t found (Option.ite_none_left_eq_some.mp hfound).2,
      hwell.indexes⟩
  | putIndex index =>
    refine ⟨hwell.schemas, fun t i found hfound => ?_⟩
    rcases ite_eq_iff.mp hfound with ⟨⟨rfl, rfl⟩, hindex⟩ | ⟨-, hfound⟩
    · rw [← Option.some.inj hindex]
      exact ⟨hfits, rfl, rfl⟩
    · exact hwell.indexes t i found hfound
  | deleteIndex table index =>
    exact ⟨hwell.schemas, fun t i found hfound =>
      hwell.indexes t i found (Option.ite_none_left_eq_some.mp hfound).2⟩
  | _ => exact hwell

end Ledger

/-- The indexes of a table that are live, in the order of their names. -/
structure Ledger.Lists (ledger : Ledger) (table : String) (list : List IndexDefinition) : Prop where
  ordered : list.Pairwise fun a b => a.name < b.name
  mem_iff : ∀ index, index ∈ list ↔ ledger.indexes table index.name = some index

/-- The table whose schema is at a place. -/
def Slot.schemaTable? : Slot → Option String
  | schema table => some table
  | _ => none

theorem Slot.schemaTable?_eq_some {slot : Slot} : slot.schemaTable? = some table ↔ slot = .schema table := by
  cases slot <;> simp [schemaTable?]

namespace Catalog

/-- A definition as an entry of the store. -/
def definitionEntry (layout : KeyLayout) (index : IndexDefinition) : Entry :=
  ((Slot.definition index.table index.name).key layout, index.toBytes)

theorem indexOfMetaKey?_key (h : (Slot.definition table index).Fits) :
    layout.indexOfMetaKey? table ((Slot.definition table index).key layout) = .ok (some index) :=
  ((KeyLayout.readsNames_indexOfMetaKey? h.table_fits).found _ _).mpr (KeyLayout.indexMetaKey?_fits h)

theorem definitionsOf_map {indexes : List IndexDefinition}
    (h : ∀ index ∈ indexes, index.table = table ∧ (Slot.definition table index.name).Fits) :
    definitionsOf layout table (indexes.map (definitionEntry layout))
      = .ok (indexes.map IndexDefinition.stored) := by
  induction indexes with
  | nil => rfl
  | cons index indexes ih =>
    rcases h index List.mem_cons_self with ⟨htable, hfits⟩
    rw [List.map_cons, definitionEntry, htable, definitionsOf, indexOfMetaKey?_key hfits, ok_bind]
    simp only [StoredIndex.ofBytes_toBytes, ok_bind, List.map_cons,
      ih fun other hother => h other (List.mem_cons_of_mem _ hother)]

/-- Indexes in the order of their names. -/
def inOrder (indexes : List IndexDefinition) : List IndexDefinition :=
  indexes.mergeSort fun a b => !decide (b.name < a.name)

theorem sortByName_stored (indexes : List IndexDefinition) :
    sortByName (indexes.map IndexDefinition.stored)
      = .ok ((inOrder indexes).map IndexDefinition.stored) := by
  have hordered : haveOrder (indexes.map IndexDefinition.stored) = true := by
    cases indexes with
    | nil => rfl
    | cons index indexes =>
      rw [List.map_cons, haveOrder, List.all_eq_true]
      intro stored hstored
      rcases List.mem_map.mp hstored with ⟨other, -, rfl⟩
      rfl
  rw [sortByName, if_pos hordered, inOrder, List.map_mergeSort]
  intro a _ b _
  rfl

theorem mem_inOrder {index : IndexDefinition} {indexes : List IndexDefinition} :
    index ∈ inOrder indexes ↔ index ∈ indexes :=
  List.mem_mergeSort

theorem ordered_inOrder {indexes : List IndexDefinition}
    (hnodup : (indexes.map IndexDefinition.name).Nodup) :
    (inOrder indexes).Pairwise fun a b => a.name < b.name := by
  have hsorted : (inOrder indexes).Pairwise fun a b => a.name ≤ b.name := by
    refine (List.pairwise_mergeSort (fun a b c hab hbc => ?_) (fun a b => ?_) indexes).imp ?_
    · simp only [Bool.not_eq_true', decide_eq_false_iff_not, String.not_lt] at hab hbc ⊢
      exact String.le_trans hab hbc
    · simp only [Bool.or_eq_true, Bool.not_eq_true', decide_eq_false_iff_not, String.not_lt]
      exact String.le_total a.name b.name
    · intro a b hab
      rwa [Bool.not_eq_true', decide_eq_false_iff_not, String.not_lt] at hab
  have hnames : (inOrder indexes).Pairwise fun a b => a.name ≠ b.name := by
    rw [← List.pairwise_map]
    exact ((List.mergeSort_perm indexes _).map IndexDefinition.name).nodup_iff.mpr hnodup
  refine (hsorted.and hnames).imp fun ⟨hle, hne⟩ => ?_
  by_contra hnot
  exact hne (String.le_antisymm hle (String.not_lt.mp hnot))

theorem tableOfSchemaKey?_key {slot : Slot} (h : slot.Fits) :
    layout.tableOfSchemaKey? (slot.key layout) = .ok slot.schemaTable? := by
  have hkey : slot.key layout = layout.root ++ (Key.encodeName slot.table ++ slot.tail) := by
    rw [Slot.key, KeyLayout.tablePrefix, List.append_assoc]
  rw [KeyLayout.tableOfSchemaKey?, hkey]
  rcases Slot.tags with ⟨hs, hr, hx, he⟩
  cases slot with
  | schema table => exact KeyLayout.nameBetween_named h.table_fits _ _
  | _ => exact KeyLayout.nameBetween_of_ne_tag h.table_fits (by simp [Slot.tail, hs, hr, hx, he]) _

/-- The names that are read from the keys of places are those of the schemas among them. -/
theorem namesOf_placed {found : List Entry} {slots : List Slot} (hfits : ∀ slot ∈ slots, slot.Fits)
    (hkeys : found.map Prod.fst = slots.map (Slot.key layout)) :
    namesOf layout.tableOfSchemaKey? found = .ok (slots.filterMap Slot.schemaTable?) := by
  induction slots generalizing found with
  | nil =>
    rw [List.map_eq_nil_iff.mp hkeys]
    rfl
  | cons slot slots ih =>
    rcases List.map_eq_cons_iff.mp hkeys with ⟨⟨key, value⟩, rest, rfl, rfl, hrest⟩
    rcases List.forall_mem_cons.mp hfits with ⟨hfirst, hothers⟩
    rw [namesOf, tableOfSchemaKey?_key hfirst, ok_bind, ih hothers hrest, ok_bind]
    cases slot <;> rfl

end Catalog

/-- A store whose keys under the root are those of places. -/
def Contents.Placed (layout : KeyLayout) (c : Contents) : Prop :=
  ∀ key value, c.get? key = some value → Bytes.carries layout.root key = true →
    ∃ slot : Slot, slot.Fits ∧ key = slot.key layout

/-- The keys under the root are those of different places. -/
theorem Contents.Placed.exists_slots (h : c.Placed layout) :
    ∃ slots : List Slot,
      (c.entries.filter fun e => Bytes.carries layout.root e.1).map Prod.fst
        = slots.map (Slot.key layout)
      ∧ (∀ slot ∈ slots, slot.Fits) ∧ slots.Nodup
      ∧ ∀ {slot : Slot}, slot.Fits →
        (slot ∈ slots ↔ ∃ value, c.get? (slot.key layout) = some value) := by
  have hplaced : ∀ key ∈ (c.entries.filter fun e => Bytes.carries layout.root e.1).map Prod.fst,
      ∃ slot : Slot, slot.Fits ∧ key = slot.key layout := by
    intro key hkey
    rcases List.mem_map.mp hkey with ⟨⟨_, value⟩, he, rfl⟩
    rcases List.mem_filter.mp he with ⟨hmem, hcarries⟩
    exact h _ value (Contents.mem_entries.mp hmem) hcarries
  rcases exists_map_of_forall hplaced with ⟨slots, hkeys, hfits⟩
  have hdistinct : (slots.map (Slot.key layout)).Nodup := by
    rw [← hkeys, List.Nodup, List.pairwise_map]
    exact c.ascending.distinct.sublist List.filter_sublist
  refine ⟨slots, hkeys, hfits, hdistinct.of_map _, fun {slot} hslot => ?_⟩
  -- A key is that of one place only, so the place is listed if its key is.
  have hkey : slot ∈ slots ↔ slot.key layout ∈ slots.map (Slot.key layout) := by
    refine ⟨List.mem_map_of_mem, fun hkey => ?_⟩
    rcases List.mem_map.mp hkey with ⟨other, hother, heq⟩
    rwa [← Slot.key_injective (hfits other hother) hslot heq]
  rw [hkey, ← hkeys, List.mem_map]
  constructor
  · rintro ⟨⟨_, value⟩, he, rfl⟩
    exact ⟨value, Contents.mem_entries.mp (List.mem_filter.mp he).1⟩
  · rintro ⟨value, hvalue⟩
    exact ⟨(_, value),
      List.mem_filter.mpr ⟨Contents.mem_entries.mpr hvalue, slot.carries_root⟩, rfl⟩

/-- A store that records a ledger. -/
structure Ledger.Records (ledger : Ledger) (layout : KeyLayout) (c : Contents) : Prop where
  wellFormed : ledger.WellFormed
  placed : c.Placed layout
  held : ∀ slot : Slot, slot.Fits → ¬slot.IsData → c.get? (slot.key layout) = ledger.bytesAt slot

namespace Ledger.Records

variable {ledger : Ledger} {change : StoreChange} {slot : Slot} {answer : Option Bytes}

/-- A change of one place is recorded if the ledger changes at that place in the same way. -/
theorem write (h : ledger.Records layout c) (hwrites : change.Writes slot answer)
    (hfits : slot.Fits) (hregular : change.IsRegular)
    (hget : ∀ key, c'.get? key = if key = slot.key layout then answer else c.get? key) :
    (ledger.after change (.ok ())).Records layout c' where
  wellFormed := h.wellFormed.after hwrites hfits hregular
  -- Only the key that is written can be new, and it is a slot's.
  placed key value hvalue hcarries := by
    by_cases hkey : key = slot.key layout
    · exact ⟨slot, hfits, hkey⟩
    · rw [hget, if_neg hkey] at hvalue
      exact h.placed key value hvalue hcarries
  held other hother hdata := by
    rw [hget]
    by_cases heq : other = slot
    · rw [if_pos (congrArg (Slot.key layout) heq), heq]
      exact (bytesAt_after_self ledger hwrites (heq ▸ hdata)).symm
    · rw [if_neg (Slot.key_ne hother hfits heq), bytesAt_after_other ledger hwrites heq]
      exact h.held other hother hdata

/-- Every change is recorded. -/
theorem perform (h : ledger.Records layout w.store) (hregular : change.IsRegular) :
    (ledger.after change ((change.perform layout).on w).1).Records layout
      ((change.perform layout).on w).2.store := by
  rcases change.acts layout w with
    ⟨fault, hrun⟩ | ⟨slot, answer, c, hwrites, hfits, hrun, hget⟩
  · rw [hrun, after_error]
    exact h
  · rw [hrun]
    exact h.write hwrites hfits hregular hget

/-- The schema that was put last is read. -/
theorem looks_schema? (h : ledger.Records layout w.store) (table : String) :
    (Catalog.schema? layout table).Looks w (layout.schemaKey? table >>= fun _ =>
      .ok ((ledger.schemas table).map TableSchema.stored)) := by
  refine (looks_lift _ w).bind fun key hkey => ?_
  rcases KeyLayout.schemaKey?_ok hkey with ⟨rfl, hfits⟩
  have hfetch := looks_fetch ((Slot.schema table).key layout) w
  rw [h.held _ hfits fun hf => hf, bytesAt] at hfetch
  rcases hschema : ledger.schemas table with _ | schema
  · rw [hschema] at hfetch
    exact hfetch.run_bind
  · rcases h.wellFormed.schemas table schema hschema with ⟨-, -, hregular, data, hdata⟩
    rw [hschema, Option.bind_some, hdata] at hfetch
    refine hfetch.run_bind.trans ?_
    dsimp only [Except.toOption]
    rw [StoredSchema.ofBytes_toBytes hregular hdata]
    rfl

/-- The definition that was put last is read. -/
theorem looks_index? (h : ledger.Records layout w.store) (table index : String) :
    (Catalog.index? layout table index).Looks w (layout.indexMetaKey? table index >>= fun _ =>
      .ok ((ledger.indexes table index).map IndexDefinition.stored)) := by
  refine (looks_lift _ w).bind fun key hkey => ?_
  rcases KeyLayout.indexMetaKey?_ok hkey with ⟨rfl, hfits⟩
  have hfetch := looks_fetch ((Slot.definition table index).key layout) w
  rw [h.held _ hfits fun hf => hf, bytesAt] at hfetch
  rcases hindex : ledger.indexes table index with _ | definition
  · rw [hindex] at hfetch
    exact hfetch.run_bind
  · rw [hindex] at hfetch
    refine hfetch.run_bind.trans ?_
    dsimp only [Option.map_some]
    rw [StoredIndex.ofBytes_toBytes]
    rfl

/-- What a scan for definitions finds are the live ones. -/
theorem exists_scan (h : ledger.Records layout c) (hname : Key.fits (Text.encode table) = true) :
    ∃ list : List IndexDefinition,
      (c.entries.filter fun e => Bytes.carries (layout.indexMetaPrefix table) e.1)
        = list.map (Catalog.definitionEntry layout)
      ∧ ∀ index, index ∈ list ↔ ledger.indexes table index.name = some index := by
  have hfound : ∀ e ∈ c.entries.filter fun e =>
      Bytes.carries (layout.indexMetaPrefix table) e.1, ∃ index : IndexDefinition,
      ledger.indexes table index.name = some index ∧ e = Catalog.definitionEntry layout index := by
    rintro ⟨key, value⟩ he
    rcases List.mem_filter.mp he with ⟨hmem, hcarries⟩
    have hget := Contents.mem_entries.mp hmem
    rcases h.placed key value hget (KeyLayout.carries_root_of_indexMetaPrefix hcarries) with
      ⟨slot, hfits, rfl⟩
    rcases (Slot.carries_indexMetaPrefix hfits hname).mp hcarries with ⟨name, rfl⟩
    rw [h.held _ hfits fun hf => hf, bytesAt] at hget
    rcases Option.map_eq_some_iff.mp hget with ⟨index, hindex, rfl⟩
    rcases h.wellFormed.indexes table name index hindex with ⟨-, htable, rfl⟩
    exact ⟨index, hindex, by rw [Catalog.definitionEntry, htable]⟩
  rcases exists_map_of_forall hfound with ⟨list, hscan, hlist⟩
  refine ⟨list, hscan, fun index => ⟨hlist index, fun hindex => ?_⟩⟩
  -- It is stored, so the scan has come across it.
  rcases h.wellFormed.indexes table index.name index hindex with ⟨hfits, htable, -⟩
  have hget := h.held _ hfits fun hf => hf
  rw [bytesAt, hindex, Option.map_some] at hget
  have hmem : Catalog.definitionEntry layout index ∈ list.map (Catalog.definitionEntry layout) := by
    rw [← hscan, Catalog.definitionEntry, htable]
    exact List.mem_filter.mpr ⟨Contents.mem_entries.mpr hget,
      (Slot.carries_indexMetaPrefix hfits hname).mpr ⟨index.name, rfl⟩⟩
  rcases List.mem_map.mp hmem with ⟨other, hother, heq⟩
  rwa [← IndexDefinition.toBytes_injective (Prod.mk.inj heq).2]

/-- Stores that record the same ledger have the same definitions. -/
theorem scan_eq (h : ledger.Records layout c) (h' : ledger.Records layout c')
    (hname : Key.fits (Text.encode table) = true) :
    (c.entries.filter fun e => Bytes.carries (layout.indexMetaPrefix table) e.1)
      = c'.entries.filter fun e => Bytes.carries (layout.indexMetaPrefix table) e.1 := by
  refine (Contents.filter_eq_iff _).mpr fun key hcarries => ?_
  -- Both hold what the ledger says, so it is enough to go from one to the other.
  have hstored : ∀ {a b : Contents}, ledger.Records layout a → ledger.Records layout b →
      ∀ value, a.get? key = some value → b.get? key = some value := by
    intro a b ha hb value hget
    rcases ha.placed key value hget (KeyLayout.carries_root_of_indexMetaPrefix hcarries) with
      ⟨slot, hfits, rfl⟩
    rcases (Slot.carries_indexMetaPrefix hfits hname).mp hcarries with ⟨index, rfl⟩
    rw [hb.held _ hfits fun hf => hf, ← ha.held _ hfits fun hf => hf]
    exact hget
  exact Option.ext fun value => ⟨hstored h h' value, hstored h' h value⟩

/-- The live indexes of a table are read, each once and in the order of their names. -/
theorem exists_indexes (h : ledger.Records layout c) (hname : Key.fits (Text.encode table) = true) :
    ∃ list, ledger.Lists table list ∧ ∀ w : World, ledger.Records layout w.store →
      (Catalog.indexes layout table).Looks w (.ok (list.map IndexDefinition.stored)) := by
  rcases h.exists_scan hname with ⟨list, hscan, hlist⟩
  have hbelongs : ∀ index ∈ list, index.BelongsTo table index.name := fun index hindex =>
    h.wellFormed.indexes table index.name index ((hlist index).mp hindex)
  -- The keys that were scanned are different, and so are the names in them.
  have hnodup : (list.map IndexDefinition.name).Nodup := by
    have hascending : Ascending (list.map (Catalog.definitionEntry layout)) := by
      rw [← hscan]
      exact c.ascending.sublist List.filter_sublist
    rw [List.Nodup, List.pairwise_map]
    rw [Ascending, List.pairwise_map] at hascending
    refine hascending.imp_of_mem ?_
    intro a b ha hb hlt heq
    rw [Catalog.definitionEntry, Catalog.definitionEntry, (hbelongs a ha).table,
      (hbelongs b hb).table, heq] at hlt
    exact List.lt_irrefl _ hlt
  refine ⟨Catalog.inOrder list, ⟨Catalog.ordered_inOrder hnodup, fun index => ?_⟩, fun w hw => ?_⟩
  · rw [Catalog.mem_inOrder, hlist]
  · have hentries := looks_entries (layout.indexMetaPrefix table) w
    rw [hw.scan_eq h hname, hscan] at hentries
    rw [Catalog.indexes, KeyLayout.indexMetaPrefix?_fits hname]
    refine (looks_lift _ w).run_bind.trans (hentries.run_bind.trans ?_)
    rw [Catalog.definitionsOf_map fun index hindex =>
      ⟨(hbelongs index hindex).table, (hbelongs index hindex).fits⟩, ok_bind,
      Catalog.sortByName_stored]
    rfl

/-- A table whose name has no place in a key has no indexes. -/
theorem lists_nil (h : ledger.Records layout c) (hname : ¬Key.fits (Text.encode table) = true) :
    ledger.Lists table [] where
  ordered := List.Pairwise.nil
  mem_iff index := by
    refine ⟨fun hindex => absurd hindex List.not_mem_nil, fun hindex => ?_⟩
    exact absurd (h.wellFormed.indexes table index.name index hindex).fits.table_fits hname

/-- The tables with a live schema are read, each once. -/
theorem exists_tables (h : ledger.Records layout w.store) :
    ∃ names : List String, (Catalog.tables layout).Looks w (.ok names) ∧ names.Nodup
      ∧ ∀ table, table ∈ names ↔ ∃ schema, ledger.schemas table = some schema := by
  rcases h.placed.exists_slots with ⟨slots, hkeys, hfits, hslots, hmem⟩
  refine ⟨slots.filterMap Slot.schemaTable?, ?_, hslots.filterMap fun a b table ha hb => ?_,
    fun table => ?_⟩
  · -- The names are read off the keys; values are not looked at.
    refine (looks_entries layout.root w).run_bind.trans ?_
    rw [Catalog.namesOf_placed hfits hkeys]
    rfl
  · rw [Slot.schemaTable?_eq_some.mp ha, Slot.schemaTable?_eq_some.mp hb]
  · simp only [List.mem_filterMap, Slot.schemaTable?_eq_some, exists_eq_right]
    constructor
    · intro hslot
      have hfit := hfits _ hslot
      rcases (hmem hfit).mp hslot with ⟨value, hvalue⟩
      rw [h.held _ hfit fun hf => hf, bytesAt] at hvalue
      rcases Option.bind_eq_some_iff.mp hvalue with ⟨schema, hschema, -⟩
      exact ⟨schema, hschema⟩
    · rintro ⟨schema, hschema⟩
      rcases h.wellFormed.schemas table schema hschema with ⟨-, hfit, -, data, hdata⟩
      refine (hmem hfit).mpr ⟨data, ?_⟩
      rw [h.held _ hfit fun hf => hf, bytesAt, hschema, Option.bind_some, hdata]
      rfl

end Ledger.Records

/-- The ledger and the store that changes lead to, from a store without any key under the
    root. -/
inductive Recorded (layout : KeyLayout) : Ledger → Memory → Prop where
  | start {m : Memory} (ascending : Ascending m.entries)
      (free : ∀ entry ∈ m.entries, Bytes.carries layout.root entry.1 = false) :
      Recorded layout .empty m
  | change {ledger : Ledger} {m : Memory} (h : Recorded layout ledger m) {change : StoreChange}
      (regular : change.IsRegular) (ids : IdSource) (notes : List String) :
      Recorded layout
        (ledger.after change ((change.perform layout).run memoryBackend ⟨m, ids, notes⟩).1)
        ((change.perform layout).run memoryBackend ⟨m, ids, notes⟩).2.store

/-- A store without any key under the root records that nothing has been put. -/
theorem Ledger.records_empty (h : ∀ entry ∈ c.entries, Bytes.carries layout.root entry.1 = false) :
    Ledger.empty.Records layout c := by
  have hfree : ∀ key, Bytes.carries layout.root key = true → c.get? key = none := by
    intro key hcarries
    rcases hget : c.get? key with _ | value
    · rfl
    · rw [h _ (Contents.mem_entries.mpr hget)] at hcarries
      exact absurd hcarries (by simp)
  refine ⟨⟨fun _ _ hnone => absurd hnone (by simp [empty]), fun _ _ _ hnone =>
    absurd hnone (by simp [empty])⟩, fun key value hget hcarries => ?_, fun slot _ _ => ?_⟩
  · rw [hfree key hcarries] at hget
    exact absurd hget (by simp)
  · rw [hfree _ slot.carries_root]
    cases slot <;> rfl

/-- Any number of changes are recorded. -/
theorem Recorded.records {ledger : Ledger} {m : Memory} (h : Recorded layout ledger m) :
    ∃ c : Contents, m.entries = c.entries ∧ ledger.Records layout c := by
  induction h with
  | start ascending free => exact ⟨⟨_, ascending⟩, rfl, Ledger.records_empty free⟩
  | @change ledger m h change regular ids notes ih =>
    rcases ih with ⟨c, hm, hrecords⟩
    rcases (change.perform layout).run_contents hm ids notes with ⟨hout, hshows⟩
    refine ⟨_, hshows.entries, ?_⟩
    rw [hout]
    exact Ledger.Records.perform (w := ⟨c, ids, notes⟩) hrecords regular

/-- What is found by those who read the catalog: what the ledger says, unless a name has no
    place in a key. Of the schemas that can be stored for a table only the live one is read. -/
structure Ledger.Answers (ledger : Ledger) (layout : KeyLayout) (s : Surroundings Memory) :
    Prop where
  schema : ∀ table, ((Catalog.schema? layout table).run memoryBackend s).1
    = layout.schemaKey? table >>= fun _ => .ok ((ledger.schemas table).map TableSchema.stored)
  schema_exact : ∀ table (schema : TableSchema), schema.BelongsTo table →
    (((Catalog.schema? layout table).run memoryBackend s).1 = .ok (some schema.stored)
      ↔ ledger.schemas table = some schema)
  index : ∀ table name, ((Catalog.index? layout table name).run memoryBackend s).1
    = layout.indexMetaKey? table name >>= fun _ =>
      .ok ((ledger.indexes table name).map IndexDefinition.stored)
  indexes : ∀ table, ∃ list, ledger.Lists table list
    ∧ ((Catalog.indexes layout table).run memoryBackend s).1
      = layout.indexMetaPrefix? table >>= fun _ => .ok (list.map IndexDefinition.stored)
  tables : ∃ names : List String, ((Catalog.tables layout).run memoryBackend s).1 = .ok names
    ∧ names.Nodup ∧ ∀ table, table ∈ names ↔ ∃ schema, ledger.schemas table = some schema

/-- The catalog is what has been put and not been deleted since, whatever rows and entries
    have been stored beside it. -/
theorem Recorded.answers {ledger : Ledger} {m : Memory} (h : Recorded layout ledger m)
    (ids : IdSource) (notes : List String) : ledger.Answers layout ⟨m, ids, notes⟩ := by
  rcases h.records with ⟨c, hm, hrecords⟩
  -- The readers write nothing, so their answers are those of the contents.
  have hread : ∀ {α : Type} {x : Access α} {r : Except Fault α}, x.Looks ⟨c, ids, notes⟩ r →
      (x.run memoryBackend ⟨m, ids, notes⟩).1 = r := by
    intro α x r hlooks
    rw [(x.run_contents hm ids notes).1, (hlooks : _ = _)]
  have hw : ledger.Records layout (⟨c, ids, notes⟩ : World).store := hrecords
  have hschema := fun table => hread (hw.looks_schema? table)
  refine ⟨hschema, fun table schema hbelongs => ?_, fun table name => hread (hw.looks_index? table name),
    fun table => ?_, ?_⟩
  · rw [hschema, KeyLayout.schemaKey?_fits hbelongs.fits, ok_bind, Except.ok.injEq]
    constructor
    · intro hstored
      rcases Option.map_eq_some_iff.mp hstored with ⟨live, hlive, heq⟩
      have hkept := (hrecords.wellFormed.schemas table live hlive).defaultKept
      rw [hlive, TableSchema.eq_of_stored_eq hkept hbelongs.defaultKept heq]
    · intro hlive
      rw [hlive]
      rfl
  · by_cases hname : Key.fits (Text.encode table) = true
    · rcases hrecords.exists_indexes hname with ⟨list, hlists, hlooks⟩
      refine ⟨list, hlists, ?_⟩
      rw [KeyLayout.indexMetaPrefix?_fits hname, ok_bind]
      exact hread (hlooks _ hw)
    · refine ⟨[], hrecords.lists_nil hname, hread ?_⟩
      rcases hpre : layout.indexMetaPrefix? table with fault | start
      · rw [Catalog.indexes, hpre]
        rfl
      · exact absurd ((Key.ofComponents_ok hpre).2 _ List.mem_cons_self) hname
  · rcases hw.exists_tables with ⟨names, hlooks, hnodup, hmem⟩
    exact ⟨names, hread hlooks, hnodup, hmem⟩

/-- A schema and an index of a table, beside a row whose id is the tag of schemas. -/
theorem answers_besideRow : ∃ (ledger : Ledger) (m : Memory),
    ledger.Answers ⟨KeyLayout.defaultRoot⟩ ⟨m, .counting 1 1, []⟩
      ∧ ledger.schemas "t" = some ⟨"t", [⟨"a", "INTEGER", true, false, .int 7⟩], none⟩
      ∧ ledger.indexes "t" "i" = some ⟨"i", "t", "a"⟩ ∧ m.entries.length = 3 := by
  have hstart : Recorded ⟨KeyLayout.defaultRoot⟩ .empty Memory.empty :=
    .start List.Pairwise.nil fun _ h => absurd h List.not_mem_nil
  have hregular : (StoreChange.putSchema
      ⟨"t", [⟨"a", "INTEGER", true, false, .int 7⟩], none⟩).IsRegular := by
    intro column hcolumn
    rw [List.mem_singleton.mp hcolumn]
    exact ⟨trivial, rfl⟩
  have hschema := hstart.change hregular (.counting 1 1) []
  have hrow := @Recorded.change _ _ _ hschema (.putRow "t" KeyLayout.schemaTag [1]) trivial
    (.counting 1 1) []
  have hindex := @Recorded.change _ _ _ hrow (.putIndex ⟨"i", "t", "a"⟩) trivial (.counting 1 1) []
  exact ⟨_, _, hindex.answers _ _, by decide +kernel⟩

end TableStore
