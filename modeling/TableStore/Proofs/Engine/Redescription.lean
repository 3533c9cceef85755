import TableStore.Proofs.Engine.Removal

/-!
# Changing What Is Described

A definition changes what the store is meant to hold. A new schema or a new
index is one more key, and everything that was allowed before stays allowed. A
removal loses a family of places, and what is left is allowed by a description
that is smaller by just that family.

The indexes that stay agree with the rows as before, since none of their
entries and none of their rows has been touched.

## Main definitions

* `Description.declare`, `cover`, `undeclare`, `uncover`: Changed descriptions.

## Theorems

* `Describes.declare`, `cover`: One more key.
* `Describes.undeclare`, `uncover`: The loss of a family.
* `Indexed.of_same`: Indexes whose entries and rows are not touched.
-/

namespace TableStore

variable {d d' : Description} {layout : KeyLayout} {table index : String} {c c' : Contents}

namespace Description

/-- A description with one more table. -/
def declare (d : Description) (schema : TableSchema) : Description :=
  { d with tables := fun t => if t = schema.name then some schema else d.tables t }

/-- A description with one more index. -/
def cover (d : Description) (table index column : String) : Description :=
  { d with covers := fun t i => if t = table ∧ i = index then some column else d.covers t i }

/-- A description without a table and its indexes. -/
def undeclare (d : Description) (table : String) : Description where
  tables t := if t = table then none else d.tables t
  covers t i := if t = table then none else d.covers t i

/-- A description without an index. -/
def uncover (d : Description) (table index : String) : Description :=
  { d with covers := fun t i => if t = table ∧ i = index then none else d.covers t i }

theorem tables_declare {schema s : TableSchema} {t : String}
    (h : (d.declare schema).tables t = some s) :
    (t = schema.name ∧ s = schema) ∨ (t ≠ schema.name ∧ d.tables t = some s) := by
  rcases ite_eq_iff.mp h with ⟨heq, hs⟩ | hother
  · exact Or.inl ⟨heq, (Option.some.inj hs).symm⟩
  · exact Or.inr hother

theorem tables_declare_of_some {schema s : TableSchema} (hnone : d.tables schema.name = none)
    {t : String} (h : d.tables t = some s) : (d.declare schema).tables t = some s := by
  refine (if_neg ?_).trans h
  rintro rfl
  rw [hnone] at h
  exact absurd h (by simp)

theorem covers_cover {column col t i : String} (h : (d.cover table index column).covers t i = some col) :
    (t = table ∧ i = index ∧ col = column) ∨ (¬(t = table ∧ i = index) ∧ d.covers t i = some col) := by
  rcases ite_eq_iff.mp h with ⟨heq, hcol⟩ | hother
  · exact Or.inl ⟨heq.1, heq.2, (Option.some.inj hcol).symm⟩
  · exact Or.inr hother

theorem covers_cover_self (d : Description) (table index column : String) :
    (d.cover table index column).covers table index = some column :=
  if_pos ⟨rfl, rfl⟩

theorem covers_cover_of_some {column col t i : String} (hnone : d.covers table index = none)
    (h : d.covers t i = some col) : (d.cover table index column).covers t i = some col := by
  refine (if_neg ?_).trans h
  rintro ⟨rfl, rfl⟩
  rw [hnone] at h
  exact absurd h (by simp)

theorem tables_undeclare {s : TableSchema} {t : String} :
    (d.undeclare table).tables t = some s ↔ t ≠ table ∧ d.tables t = some s :=
  Option.ite_none_left_eq_some

theorem covers_undeclare {t i column : String} :
    (d.undeclare table).covers t i = some column ↔ t ≠ table ∧ d.covers t i = some column :=
  Option.ite_none_left_eq_some

theorem covers_uncover {t i column : String} :
    (d.uncover table index).covers t i = some column
      ↔ ¬(t = table ∧ i = index) ∧ d.covers t i = some column :=
  Option.ite_none_left_eq_some

/-- What a description allows, a larger one allows. -/
theorem Allows.mono (htables : ∀ t schema, d.tables t = some schema → d'.tables t = some schema)
    (hcovers : ∀ t i column, d.covers t i = some column → d'.covers t i = some column)
    {slot : Slot} {data : Bytes} (h : d.Allows slot data) : d'.Allows slot data := by
  cases slot with
  | schema t =>
    rcases h with ⟨schema, ht, hdata⟩
    exact ⟨schema, htables t schema ht, hdata⟩
  | row t id =>
    rcases h with ⟨schema, ht, hrow⟩
    exact ⟨schema, htables t schema ht, hrow⟩
  | definition t i =>
    rcases h with ⟨column, hi, hdata⟩
    exact ⟨column, hcovers t i column hi, hdata⟩
  | entry t i value id =>
    rcases h with ⟨column, hi⟩
    exact ⟨column, hcovers t i column hi⟩

/-- Indexes agree with the rows as before if they were described before and
    neither their entries nor their rows have been touched. -/
theorem Indexed.of_same {changed : Slot → Prop} (h : d.Indexed layout c)
    (hsame : c.SameExcept layout changed c')
    (hcovers : ∀ t i column, d'.covers t i = some column → d.covers t i = some column
      ∧ (∀ id, ¬changed (.row t id)) ∧ ∀ value id, ¬changed (.entry t i value id)) :
    d'.Indexed layout c' := by
  intro t i column hi id value data hfits
  rcases hcovers t i column hi with ⟨hi, hrow, hentry⟩
  rw [hsame.get?_slot hfits (hentry value id), Contents.cell, Contents.rowAt,
    hsame.get?_slot hfits.row_of_entry (hrow id)]
  exact h t i column hi id value data hfits

namespace WellFormed

theorem declare (h : d.WellFormed) {schema : TableSchema} (hnone : d.tables schema.name = none)
    (hfits : Key.fits (Text.encode schema.name) = true) (hwell : schema.WellFormed) {data : Bytes}
    (hbytes : schema.toBytes = .ok data) : (d.declare schema).WellFormed where
  schema_fits t s ht := by
    rcases tables_declare ht with ⟨rfl, -⟩ | ⟨-, ht⟩
    · exact hfits
    · exact h.schema_fits t s ht
  schema_name t s ht := by
    rcases tables_declare ht with ⟨rfl, rfl⟩ | ⟨-, ht⟩
    · rfl
    · exact h.schema_name t s ht
  schema_wellFormed t s ht := by
    rcases tables_declare ht with ⟨-, rfl⟩ | ⟨-, ht⟩
    · exact hwell
    · exact h.schema_wellFormed t s ht
  schema_bytes t s ht := by
    rcases tables_declare ht with ⟨-, rfl⟩ | ⟨-, ht⟩
    · exact ⟨data, hbytes⟩
    · exact h.schema_bytes t s ht
  index_fits := h.index_fits
  index_column t i column hi := by
    rcases h.index_column t i column hi with ⟨s, ht, hcolumn⟩
    exact ⟨s, tables_declare_of_some hnone ht, hcolumn⟩

theorem cover (h : d.WellFormed) {schema : TableSchema} {column : String}
    (ht : d.tables table = some schema) (hcolumn : column ∈ schema.names)
    (hfits : Key.fits (Text.encode index) = true) : (d.cover table index column).WellFormed where
  schema_fits := h.schema_fits
  schema_name := h.schema_name
  schema_wellFormed := h.schema_wellFormed
  schema_bytes := h.schema_bytes
  index_fits t i col hi := by
    rcases covers_cover hi with ⟨-, rfl, -⟩ | ⟨-, hi⟩
    · exact hfits
    · exact h.index_fits t i col hi
  index_column t i col hi := by
    rcases covers_cover hi with ⟨rfl, -, rfl⟩ | ⟨-, hi⟩
    · exact ⟨schema, ht, hcolumn⟩
    · exact h.index_column t i col hi

theorem undeclare (h : d.WellFormed) (table : String) : (d.undeclare table).WellFormed where
  schema_fits t s ht := h.schema_fits t s (tables_undeclare.mp ht).2
  schema_name t s ht := h.schema_name t s (tables_undeclare.mp ht).2
  schema_wellFormed t s ht := h.schema_wellFormed t s (tables_undeclare.mp ht).2
  schema_bytes t s ht := h.schema_bytes t s (tables_undeclare.mp ht).2
  index_fits t i column hi := h.index_fits t i column (covers_undeclare.mp hi).2
  index_column t i column hi := by
    rcases covers_undeclare.mp hi with ⟨hne, hi⟩
    rcases h.index_column t i column hi with ⟨s, ht, hcolumn⟩
    exact ⟨s, tables_undeclare.mpr ⟨hne, ht⟩, hcolumn⟩

theorem uncover (h : d.WellFormed) (table index : String) : (d.uncover table index).WellFormed where
  schema_fits := h.schema_fits
  schema_name := h.schema_name
  schema_wellFormed := h.schema_wellFormed
  schema_bytes := h.schema_bytes
  index_fits t i column hi := h.index_fits t i column (covers_uncover.mp hi).2
  index_column t i column hi := h.index_column t i column (covers_uncover.mp hi).2

end WellFormed

namespace Describes

/-- The keys under the root of a described store are those of places. -/
theorem placed (h : d.Describes layout c) : c.Placed layout :=
  h.records.placed

/-- A schema that is stored for a table that was not there. -/
theorem declare (h : d.Describes layout c) {schema : TableSchema}
    (hnone : d.tables schema.name = none) (hfits : (Slot.schema schema.name).Fits)
    (hwell : schema.WellFormed) {data : Bytes} (hbytes : schema.toBytes = .ok data) :
    (d.declare schema).Describes layout (c.insert ((Slot.schema schema.name).key layout) data) where
  wellFormed := h.wellFormed.declare hnone hfits.table_fits hwell hbytes
  binds key value hget := by
    rw [Contents.get?_insert] at hget
    split at hget
    · rename_i hkey
      rw [hkey, ← Option.some.inj hget]
      exact fun _ => ⟨.schema schema.name, hfits, rfl, schema, if_pos rfl, hbytes⟩
    · intro hroot
      rcases h.binds key value hget hroot with ⟨slot, hslot, hkey, hallows⟩
      exact ⟨slot, hslot, hkey, hallows.mono (fun t s ht => tables_declare_of_some hnone ht)
        fun _ _ _ hi => hi⟩
  schema_stored t s bytes ht hs := by
    rcases tables_declare ht with ⟨rfl, rfl⟩ | ⟨hne, ht⟩
    · rw [hbytes] at hs
      rw [Contents.get?_insert_self, Except.ok.inj hs]
    · rw [Contents.get?_insert_other, h.schema_stored t s bytes ht hs]
      exact Slot.key_ne (h.wellFormed.schema_slot_fits ht) hfits (by simpa using hne)
  definition_stored t i column hi := by
    rw [Contents.get?_insert_other, h.definition_stored t i column hi]
    exact Slot.key_ne (h.wellFormed.definition_slot_fits hi) hfits (by simp)

/-- An index that is stored and was not there. -/
theorem cover (h : d.Describes layout c) {schema : TableSchema} {column : String}
    (ht : d.tables table = some schema) (hcolumn : column ∈ schema.names)
    (hnone : d.covers table index = none) (hfits : (Slot.definition table index).Fits) :
    (d.cover table index column).Describes layout
      (c.insert ((Slot.definition table index).key layout)
        (IndexDefinition.toBytes ⟨index, table, column⟩)) where
  wellFormed := h.wellFormed.cover ht hcolumn (hfits _ (by simp [Slot.components]))
  binds key value hget := by
    rw [Contents.get?_insert] at hget
    split at hget
    · rename_i hkey
      rw [hkey, ← Option.some.inj hget]
      exact fun _ => ⟨.definition table index, hfits, rfl, column, if_pos ⟨rfl, rfl⟩, rfl⟩
    · intro hroot
      rcases h.binds key value hget hroot with ⟨slot, hslot, hkey, hallows⟩
      have htables : ∀ t s, d.tables t = some s → (d.cover table index column).tables t = some s :=
        fun _ _ ht => ht
      exact ⟨slot, hslot, hkey, hallows.mono htables fun _ _ _ hi => covers_cover_of_some hnone hi⟩
  schema_stored t s bytes ht hs := by
    rw [Contents.get?_insert_other, h.schema_stored t s bytes ht hs]
    exact Slot.key_ne (h.wellFormed.schema_slot_fits ht) hfits (by simp)
  definition_stored t i col hi := by
    rcases covers_cover hi with ⟨rfl, rfl, rfl⟩ | ⟨hne, hi⟩
    · exact Contents.get?_insert_self _ _ _
    · rw [Contents.get?_insert_other, h.definition_stored t i col hi]
      exact Slot.key_ne (h.wellFormed.definition_slot_fits hi) hfits (by simpa using hne)

/-- The loss of a family of places. -/
theorem of_loses {gone : Slot → Prop} (h : d.Describes layout c) (hloses : c.Loses layout gone c')
    (hwell : d'.WellFormed)
    (hallows : ∀ slot data, ¬gone slot → d.Allows slot data → d'.Allows slot data)
    (htables : ∀ t s, d'.tables t = some s → d.tables t = some s ∧ ¬gone (.schema t))
    (hcovers : ∀ t i column, d'.covers t i = some column →
      d.covers t i = some column ∧ ¬gone (.definition t i)) : d'.Describes layout c' where
  wellFormed := hwell
  binds key value hget hroot := by
    rcases h.binds key value (hloses.subset key value hget) hroot with ⟨slot, hfits, rfl, hslot⟩
    -- What is still there is none of what was lost.
    refine ⟨slot, hfits, rfl, hallows slot value (fun hgone => ?_) hslot⟩
    rw [hloses.none slot hfits hgone] at hget
    exact absurd hget (by simp)
  schema_stored t s bytes ht hs := by
    rcases htables t s ht with ⟨ht, hstays⟩
    rw [hloses.same.get?_slot (h.wellFormed.schema_slot_fits ht) hstays]
    exact h.schema_stored t s bytes ht hs
  definition_stored t i column hi := by
    rcases hcovers t i column hi with ⟨hi, hstays⟩
    rw [hloses.same.get?_slot (h.wellFormed.definition_slot_fits hi) hstays]
    exact h.definition_stored t i column hi

/-- The loss of everything about a table. -/
theorem undeclare (h : d.Describes layout c) (hloses : c.Loses layout (·.table = table) c') :
    (d.undeclare table).Describes layout c' := by
  refine h.of_loses hloses (h.wellFormed.undeclare table) (fun slot data hstays hslot => ?_)
    (fun t s ht => ?_) fun t i column hi => ?_
  · -- A slot that stays is of another table, about which nothing has changed.
    cases slot with
    | schema t =>
      rcases hslot with ⟨s, ht, hdata⟩
      exact ⟨s, tables_undeclare.mpr ⟨hstays, ht⟩, hdata⟩
    | row t id =>
      rcases hslot with ⟨s, ht, hrow⟩
      exact ⟨s, tables_undeclare.mpr ⟨hstays, ht⟩, hrow⟩
    | definition t i =>
      rcases hslot with ⟨column, hi, hdata⟩
      exact ⟨column, covers_undeclare.mpr ⟨hstays, hi⟩, hdata⟩
    | entry t i value id =>
      rcases hslot with ⟨column, hi⟩
      exact ⟨column, covers_undeclare.mpr ⟨hstays, hi⟩⟩
  · exact ⟨(tables_undeclare.mp ht).2, (tables_undeclare.mp ht).1⟩
  · exact ⟨(covers_undeclare.mp hi).2, (covers_undeclare.mp hi).1⟩

/-- The loss of an index. -/
theorem uncover (h : d.Describes layout c) (hloses : c.Loses layout (Slot.IsPartOf table index) c') :
    (d.uncover table index).Describes layout c' := by
  refine h.of_loses hloses (h.wellFormed.uncover table index) (fun slot data hstays hslot => ?_)
    (fun t s ht => ⟨ht, by simp [Slot.IsPartOf]⟩) fun t i column hi => ?_
  · -- A slot that stays is of another index, or of none.
    cases slot with
    | schema t => exact hslot
    | row t id => exact hslot
    | definition t i =>
      rcases hslot with ⟨column, hi, hdata⟩
      refine ⟨column, covers_uncover.mpr ⟨?_, hi⟩, hdata⟩
      rintro ⟨rfl, rfl⟩
      exact hstays (Or.inl rfl)
    | entry t i value id =>
      rcases hslot with ⟨column, hi⟩
      refine ⟨column, covers_uncover.mpr ⟨?_, hi⟩⟩
      rintro ⟨rfl, rfl⟩
      exact hstays (Or.inr ⟨value, id, rfl⟩)
  · refine ⟨(covers_uncover.mp hi).2, ?_⟩
    rintro (heq | ⟨_, _, heq⟩)
    · rw [Slot.definition.injEq] at heq
      exact (covers_uncover.mp hi).1 heq
    · exact absurd heq (by simp)

end Describes

namespace Indexed

theorem declare (h : d.Indexed layout c) {schema : TableSchema}
    (hfits : (Slot.schema schema.name).Fits) (data : Bytes) :
    (d.declare schema).Indexed layout
      (c.insert ((Slot.schema schema.name).key layout) data) := by
  have hsame : c.SameExcept layout (Slot.schema schema.name = ·)
      (c.insert ((Slot.schema schema.name).key layout) data) :=
    Contents.SameExcept.insert hfits rfl data
  exact h.of_same hsame fun t i column hi => ⟨hi, by simp, by simp⟩

theorem undeclare (h : d.Indexed layout c) (hloses : c.Loses layout (·.table = table) c') :
    (d.undeclare table).Indexed layout c' := by
  refine h.of_same hloses.same fun t i column hi => ?_
  rcases covers_undeclare.mp hi with ⟨hne, hi⟩
  exact ⟨hi, fun _ => hne, fun _ _ => hne⟩

theorem uncover (h : d.Indexed layout c) (hloses : c.Loses layout (Slot.IsPartOf table index) c') :
    (d.uncover table index).Indexed layout c' := by
  refine h.of_same hloses.same fun t i column hi => ?_
  rcases covers_uncover.mp hi with ⟨hne, hi⟩
  refine ⟨hi, by simp [Slot.IsPartOf], fun value id => ?_⟩
  rintro (heq | ⟨_, _, heq⟩)
  · exact absurd heq (by simp)
  · rw [Slot.entry.injEq] at heq
    exact hne ⟨heq.1, heq.2.1⟩

end Indexed

end Description

end TableStore
