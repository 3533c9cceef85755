import TableStore.Proofs.Key.Slot
import TableStore.Proofs.Schema
import TableStore.Proofs.Store.Discipline

/-!
# What a Store Is Meant to Hold

The store is bytes under bytes. A description says what these bytes stand for:
which tables there are, with the schemas that were declared, and which column
each index covers. Given a description, every key under the root is that of a
place, and what may be found there is fixed by the place alone: the declared
schema, a row of the shape that the schema asks for, the definition of an
index. This is what makes the property one of single bindings, so a change of
one key has to be looked at for that key only.

A table that declares a column of the name that rows keep their id under can
overwrite the id of a row, and nothing is asked of the rows of such a table.
For the others a row is filed under its own id.

The statements that change rows leave the description as it is. They change
rows and entries of one table, so for them a discipline is enough:
`Obeys.describes` holds for every run, also one that fails half way.

## Main definitions

* `Description`: The tables and the indexes.
* `TableSchema.Accepts`: A row of the shape that a schema asks for.
* `Description.Allows`: What may be found at a place.
* `Description.Describes`: A store that holds what it is meant to hold.
* `Description.changes`: Changes to the rows and entries of one table.
* `Description.Serves`: Disciplines under which entries may change.

## Theorems

* `Describes.allows`: What is found at a place is allowed there.
* `Obeys.describes`: Changes of rows and entries keep the description.
-/

namespace TableStore

/-- The declared schemas of the tables there are. -/
abbrev Tables := String → Option TableSchema

/-- The tables of a store, and the column that each index of a table covers. -/
structure Description where
  tables : Tables
  covers : String → String → Option String

/-- A row that is filed under its id and has the shape that a schema asks for:
    the declared columns in order and then the id, and in each column a scalar
    other than NaN that coercion leaves alone. -/
structure TableSchema.Accepts (schema : TableSchema) (id : String) (row : Row) : Prop where
  names : Members.names row = schema.names ++ [rowIdMember]
  filed : Members.get? row rowIdMember = some (.text id)
  typed : ∀ column ∈ schema.columns, (Row.value row column.name).coerce column.typeName column.name
    = .ok (Row.value row column.name)
  regular : ∀ member ∈ row, member.2.IsRegular

theorem TableSchema.Accepts.scalar {schema : TableSchema} {id : String} {row : Row}
    (h : schema.Accepts id row) : ∀ member ∈ row, member.2.IsScalar :=
  fun member hmember => (h.regular member hmember).scalar

/-- Whether a schema leaves the name alone that rows keep their id under. -/
def TableSchema.KeepsIds (schema : TableSchema) : Prop :=
  rowIdMember ∉ schema.names

instance (schema : TableSchema) : Decidable schema.KeepsIds :=
  inferInstanceAs (Decidable (rowIdMember ∉ schema.names))

theorem TableSchema.Accepts.names_nodup {schema : TableSchema} {id : String} {row : Row}
    (h : schema.Accepts id row) (hwell : schema.WellFormed) (hids : schema.KeepsIds) :
    (Members.names row).Nodup := by
  rw [h.names, List.nodup_append]
  refine ⟨hwell.names_nodup, List.nodup_singleton _, ?_⟩
  intro a ha b hb hab
  rw [List.mem_singleton.mp hb] at hab
  exact hids (hab ▸ ha)

namespace Description

/-- What may be found at a place. -/
def Allows (d : Description) : Slot → Bytes → Prop
  | .schema table, data => ∃ schema, d.tables table = some schema ∧ schema.toBytes = .ok data
  | .row table id, data => ∃ schema, d.tables table = some schema ∧ (schema.KeepsIds →
      ∃ name row, id = Text.encode name ∧ schema.Accepts name row ∧ Row.toBytes row = .ok data)
  | .definition table index, data => ∃ column, d.covers table index = some column
      ∧ data = IndexDefinition.toBytes ⟨index, table, column⟩
  | .entry table index _ _, _ => ∃ column, d.covers table index = some column

/-- What every description has that comes about by statements: schemas under
    their names, and indexes on declared columns of tables. -/
structure WellFormed (d : Description) : Prop where
  schema_fits : ∀ table schema, d.tables table = some schema → Key.fits (Text.encode table) = true
  schema_name : ∀ table schema, d.tables table = some schema → schema.name = table
  schema_wellFormed : ∀ table schema, d.tables table = some schema → schema.WellFormed
  schema_bytes : ∀ table schema, d.tables table = some schema → ∃ data, schema.toBytes = .ok data
  index_fits : ∀ table index column, d.covers table index = some column →
    Key.fits (Text.encode index) = true
  index_column : ∀ table index column, d.covers table index = some column →
    ∃ schema, d.tables table = some schema ∧ column ∈ schema.names

/-- What a description says about the value of a key. -/
def Binds (d : Description) (layout : KeyLayout) (key value : Bytes) : Prop :=
  Bytes.carries layout.root key = true →
    ∃ slot : Slot, slot.Fits ∧ key = slot.key layout ∧ d.Allows slot value

/-- A store that holds what a description says, and all of it. -/
structure Describes (d : Description) (layout : KeyLayout) (c : Contents) : Prop where
  wellFormed : d.WellFormed
  binds : ∀ key value, c.get? key = some value → d.Binds layout key value
  schema_stored : ∀ table schema data, d.tables table = some schema → schema.toBytes = .ok data →
    c.get? ((Slot.schema table).key layout) = some data
  definition_stored : ∀ table index column, d.covers table index = some column →
    c.get? ((Slot.definition table index).key layout)
      = some (IndexDefinition.toBytes ⟨index, table, column⟩)

/-- Changes to the rows and entries of one table. -/
def changes (d : Description) (layout : KeyLayout) (table : String) : Discipline where
  meets := d.Binds layout
  puts key value := ∃ slot : Slot, slot.Fits ∧ slot.table = table ∧ slot.IsData
    ∧ key = slot.key layout ∧ d.Allows slot value
  deletes key := ∃ slot : Slot, slot.Fits ∧ slot.table = table ∧ slot.IsData
    ∧ key = slot.key layout
  fails _ := True

/-- A discipline of stores that hold what a description says, under which
    anything may be read and entries of one table may change. What else may
    change is left open. -/
structure Serves (d : Description) (layout : KeyLayout) (table : String) (dis : Discipline) :
    Prop where
  binds : ∀ key value, dis.meets key value → d.Binds layout key value
  puts_entry : ∀ {index first id value}, (Slot.entry table index first id).Fits →
    d.Allows (.entry table index first id) value →
    dis.puts ((Slot.entry table index first id).key layout) value
  deletes_entry : ∀ {index first id}, (Slot.entry table index first id).Fits →
    dis.deletes ((Slot.entry table index first id).key layout)
  fails : ∀ fault, dis.fails fault

theorem changes_serves (d : Description) (layout : KeyLayout) (table : String) :
    d.Serves layout table (d.changes layout table) where
  binds _ _ h := h
  puts_entry hfits hallows := ⟨_, hfits, rfl, trivial, rfl, hallows⟩
  deletes_entry hfits := ⟨_, hfits, rfl, trivial, rfl⟩
  fails _ := trivial

variable {d : Description} {layout : KeyLayout} {c : Contents}

/-- An outcome that a dialogue may end in, when it may fail in any way. -/
theorem Serves.outcome {table : String} {dis : Discipline} (h : d.Serves layout table dis) {α : Type}
    {post : α → Prop} {r : Except Fault α} (hok : ∀ a, r = .ok a → post a) :
    (Access.lift r).Obeys dis post :=
  Access.obeys_lift hok fun fault _ => h.fails fault

/-- What a description says about the value of a place's key. -/
theorem Binds.allows {slot : Slot} {value : Bytes} (h : d.Binds layout (slot.key layout) value)
    (hfits : slot.Fits) : d.Allows slot value := by
  rcases h (Slot.carries_root slot) with ⟨other, hother, hkey, hallows⟩
  rw [Slot.key_injective hfits hother hkey]
  exact hallows

/-- What is found at a place is allowed there. -/
theorem Describes.allows (h : d.Describes layout c) {slot : Slot} {value : Bytes}
    (hfits : slot.Fits) (hget : c.get? (slot.key layout) = some value) : d.Allows slot value :=
  (h.binds _ _ hget).allows hfits

theorem WellFormed.schema_slot_fits (h : d.WellFormed) {table : String} {schema : TableSchema}
    (ht : d.tables table = some schema) : (Slot.schema table).Fits := by
  intro component hcomponent
  rw [List.mem_singleton.mp hcomponent]
  exact h.schema_fits table schema ht

theorem WellFormed.definition_slot_fits (h : d.WellFormed) {table index column : String}
    (hi : d.covers table index = some column) : (Slot.definition table index).Fits := by
  rcases h.index_column table index column hi with ⟨schema, ht, -⟩
  intro component hcomponent
  rcases List.mem_cons.mp hcomponent with rfl | hmem
  · exact h.schema_fits table schema ht
  · rw [List.mem_singleton.mp hmem]
    exact h.index_fits table index column hi

/-- The schema of a table is not where rows and entries are. -/
theorem WellFormed.schema_key_ne (h : d.WellFormed) {table : String} {schema : TableSchema}
    (ht : d.tables table = some schema) {slot : Slot} (hfits : slot.Fits) (hdata : slot.IsData) :
    (Slot.schema table).key layout ≠ slot.key layout := by
  refine Slot.key_ne (h.schema_slot_fits ht) hfits ?_
  rintro rfl
  exact hdata

/-- The definition of an index is not where rows and entries are. -/
theorem WellFormed.definition_key_ne (h : d.WellFormed) {table index column : String}
    (hi : d.covers table index = some column) {slot : Slot} (hfits : slot.Fits)
    (hdata : slot.IsData) : (Slot.definition table index).key layout ≠ slot.key layout := by
  refine Slot.key_ne (h.definition_slot_fits hi) hfits ?_
  rintro rfl
  exact hdata

theorem Describes.insert_data (h : d.Describes layout c) {slot : Slot} {value : Bytes}
    (hfits : slot.Fits) (hdata : slot.IsData) (hallows : d.Allows slot value) :
    d.Describes layout (c.insert (slot.key layout) value) where
  wellFormed := h.wellFormed
  binds key v hget := by
    rw [Contents.get?_insert] at hget
    split at hget
    · rename_i hkey
      rw [hkey, ← Option.some.inj hget]
      exact fun _ => ⟨slot, hfits, rfl, hallows⟩
    · exact h.binds key v hget
  schema_stored table schema data ht hbytes := by
    rw [Contents.get?_insert_other, h.schema_stored table schema data ht hbytes]
    exact h.wellFormed.schema_key_ne ht hfits hdata
  definition_stored table index column hi := by
    rw [Contents.get?_insert_other, h.definition_stored table index column hi]
    exact h.wellFormed.definition_key_ne hi hfits hdata

theorem Describes.erase_data (h : d.Describes layout c) {slot : Slot} (hfits : slot.Fits)
    (hdata : slot.IsData) : d.Describes layout (c.erase (slot.key layout)) where
  wellFormed := h.wellFormed
  binds key v hget := by
    rw [Contents.get?_erase] at hget
    split at hget
    · exact absurd hget (by simp)
    · exact h.binds key v hget
  schema_stored table schema data ht hbytes := by
    rw [Contents.get?_erase_other, h.schema_stored table schema data ht hbytes]
    exact h.wellFormed.schema_key_ne ht hfits hdata
  definition_stored table index column hi := by
    rw [Contents.get?_erase_other, h.definition_stored table index column hi]
    exact h.wellFormed.definition_key_ne hi hfits hdata

end Description

/-- Two stores that hold the same about every table but one. -/
def Contents.AgreesOutside (layout : KeyLayout) (table : String) (c c' : Contents) : Prop :=
  ∀ slot : Slot, slot.Fits → slot.table ≠ table →
    c'.get? (slot.key layout) = c.get? (slot.key layout)

/-- A place of another table has another key. -/
theorem Slot.key_ne_of_table {layout : KeyLayout} {slot other : Slot} (hfits : slot.Fits)
    (hother : other.Fits) (hne : other.table ≠ slot.table) : other.key layout ≠ slot.key layout := by
  refine key_ne hother hfits ?_
  rintro rfl
  exact hne rfl

/-- Changes of rows and entries keep the description and other tables, and the
    value that the dialogue ends in has its property. -/
theorem Access.Obeys.describes {α : Type} {x : Access α} {post : α → Prop} {d : Description}
    {layout : KeyLayout} {table : String} (hx : x.Obeys (d.changes layout table) post) {w : World}
    (hw : d.Describes layout w.store) :
    d.Describes layout (x.on w).2.store ∧ w.store.AgreesOutside layout table (x.on w).2.store
      ∧ ∀ a, (x.on w).1 = .ok a → post a := by
  -- One invariant for both, since they are kept by the same changes.
  have hrun := hx.run
    (fun c => d.Describes layout c ∧ w.store.AgreesOutside layout table c)
    (fun c hc k v hget => hc.1.binds k v hget)
    (by
      rintro c k v ⟨hc, hagrees⟩ ⟨slot, hfits, htable, hdata, rfl, hallows⟩
      refine ⟨hc.insert_data hfits hdata hallows, fun other hother hne => ?_⟩
      rw [Contents.get?_insert_other, hagrees other hother hne]
      exact Slot.key_ne_of_table hfits hother (htable.symm ▸ hne))
    (by
      rintro c k ⟨hc, hagrees⟩ ⟨slot, hfits, htable, hdata, rfl⟩
      refine ⟨hc.erase_data hfits hdata, fun other hother hne => ?_⟩
      rw [Contents.get?_erase_other, hagrees other hother hne]
      exact Slot.key_ne_of_table hfits hother (htable.symm ▸ hne))
    w ⟨hw, fun _ _ _ => rfl⟩
  exact ⟨hrun.1.1, hrun.1.2, hrun.2.1⟩

end TableStore
