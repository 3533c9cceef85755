import TableStore.Key.Layout
import TableStore.Proofs.Key.Component
import TableStore.Proofs.Store.Contents

/-!
# The Places of a Layout

Every key under the root belongs to one of four families, and within its
family it is told apart by the parts it is built from. A slot is such a place:
the family and the parts, before they become bytes. Proofs about a store speak
of slots, because two slots are the same only if all their parts are, while a
key has to be read from its start to see that.

What carries a prefix of the layout is then a matter of the parts as well: the
keys with the prefix of the rows of a table are the row slots of that table,
and so on for the other prefixes.

## Main definitions

* `Slot`: A place in the store.
* `Slot.key`: The key of a place.
* `Slot.Fits`: A place whose parts all have a place in a key.
* `Slot.IsData`: A place for a row or an entry.

## Theorems

* `Slot.key_injective`: Places that fit have different keys.
* `Slot.carries_rowPrefix`, `carries_indexMetaPrefix`, `carries_indexPrefix`,
  `carries_tablePrefix`: The places that a prefix stands for.
* `KeyLayout.table_eq_of_carries`: No key starts with the prefixes of two tables.
* `KeyLayout.schemaKey?_ok`, `rowKey?_ok`, `indexMetaKey?_ok`: The key that is asked for is
  that of a place that fits.
-/

namespace TableStore

/-- A place in the store. -/
inductive Slot where
  | schema (table : String)
  | row (table : String) (id : Bytes)
  | definition (table index : String)
  | entry (table index : String) (value id : Bytes)

namespace KeyLayout

variable {layout : KeyLayout} {table index : String} {key : Bytes}

theorem carries_root_of_tablePrefix (h : Bytes.carries (layout.tablePrefix table) key = true) :
    Bytes.carries layout.root key = true :=
  Bytes.carries_of_append h

/-- No key starts with the prefixes of two tables. -/
theorem table_eq_of_carries {other : String} (ht : Key.fits (Text.encode table) = true)
    (ho : Key.fits (Text.encode other) = true)
    (h : Bytes.carries (layout.tablePrefix table) key = true)
    (h' : Bytes.carries (layout.tablePrefix other) key = true) : table = other := by
  rcases Bytes.carries_iff.mp h with ⟨rest, rfl⟩
  rcases Bytes.carries_iff.mp h' with ⟨rest', hrest⟩
  simp only [tablePrefix, List.append_assoc] at hrest
  exact (Key.encodeName_append_inj ht ho (List.append_cancel_left hrest)).1

theorem carries_root_of_rowPrefix (h : Bytes.carries (layout.rowPrefix table) key = true) :
    Bytes.carries layout.root key = true :=
  Bytes.carries_of_append (Bytes.carries_of_append h)

theorem carries_root_of_indexMetaPrefix
    (h : Bytes.carries (layout.indexMetaPrefix table) key = true) :
    Bytes.carries layout.root key = true :=
  Bytes.carries_of_append (Bytes.carries_of_append h)

theorem carries_root_of_indexPrefix (h : Bytes.carries (layout.indexPrefix table index) key = true) :
    Bytes.carries layout.root key = true :=
  Bytes.carries_of_append (Bytes.carries_of_append (Bytes.carries_of_append h))

end KeyLayout

namespace Slot

/-- The table that a place belongs to. -/
def table : Slot → String
  | schema table => table
  | row table _ => table
  | definition table _ => table
  | entry table _ _ _ => table

/-- What follows the table's name in the key of a place. -/
def tail : Slot → Bytes
  | schema _ => KeyLayout.schemaTag
  | row _ id => KeyLayout.rowsTag ++ Key.encodeComponent id
  | definition _ index => KeyLayout.indexesTag ++ (Key.encodeName index ++ KeyLayout.metaTag)
  | entry _ index value id =>
    KeyLayout.entriesTag
      ++ (Key.encodeName index ++ (Key.encodeComponent value ++ Key.encodeComponent id))

/-- The key of a place. -/
def key (layout : KeyLayout) (slot : Slot) : Bytes :=
  layout.tablePrefix slot.table ++ slot.tail

/-- The parts of a place. -/
def components : Slot → List Bytes
  | schema table => [Text.encode table]
  | row table id => [Text.encode table, id]
  | definition table index => [Text.encode table, Text.encode index]
  | entry table index value id => [Text.encode table, Text.encode index, value, id]

/-- A place whose parts all have a place in a key. -/
def Fits (slot : Slot) : Prop :=
  ∀ c ∈ slot.components, Key.fits c = true

/-- A place for a row or an entry. -/
def IsData : Slot → Prop
  | row _ _ => True
  | entry _ _ _ _ => True
  | _ => False

instance (slot : Slot) : Decidable slot.Fits :=
  inferInstanceAs (Decidable (∀ c ∈ slot.components, Key.fits c = true))

theorem Fits.table_fits {slot : Slot} (h : slot.Fits) : Key.fits (Text.encode slot.table) = true := by
  cases slot <;> exact h _ List.mem_cons_self

/-- The row that an entry is about has a place as well. -/
theorem Fits.row_of_entry {table index : String} {value id : Bytes}
    (h : (entry table index value id).Fits) : (row table id).Fits := by
  simp only [Fits, components, List.forall_mem_cons] at h ⊢
  exact ⟨h.1, h.2.2.2⟩

variable {layout : KeyLayout}

theorem rowKey_eq (table : String) (id : Bytes) : layout.rowKey table id = (row table id).key layout := by
  rw [KeyLayout.rowKey, KeyLayout.rowPrefix, List.append_assoc]
  rfl

theorem indexMetaKey_eq (table index : String) :
    layout.indexMetaKey table index = (definition table index).key layout := by
  rw [KeyLayout.indexMetaKey, KeyLayout.indexMetaPrefix, List.append_assoc, List.append_assoc]
  rfl

theorem entryKey_eq (table index : String) (value id : Bytes) :
    layout.indexPrefix table index ++ Key.encodeComponent value ++ Key.encodeComponent id
      = (entry table index value id).key layout := by
  simp only [KeyLayout.indexPrefix, List.append_assoc]
  rfl

theorem carries_root (slot : Slot) : Bytes.carries layout.root (slot.key layout) = true := by
  rw [key, KeyLayout.tablePrefix, List.append_assoc]
  exact Bytes.carries_append _ _

theorem tags : KeyLayout.schemaTag = [47, 115, 99, 104, 101, 109, 97]
    ∧ KeyLayout.rowsTag = [47, 114, 111, 119, 115, 47]
    ∧ KeyLayout.indexesTag = [47, 105, 110, 100, 101, 120, 101, 115, 47]
    ∧ KeyLayout.entriesTag = [47, 101, 110, 116, 114, 105, 101, 115, 47] :=
  ⟨rfl, rfl, rfl, rfl⟩

/-- A key that starts with a table's prefix is that of a place of the table. -/
theorem table_eq_of_key {slot : Slot} (h : slot.Fits) {table : String}
    (ht : Key.fits (Text.encode table) = true) {rest : Bytes}
    (hkey : slot.key layout = layout.tablePrefix table ++ rest) :
    slot.table = table ∧ slot.tail = rest := by
  simp only [key, KeyLayout.tablePrefix, List.append_assoc] at hkey
  exact Key.encodeName_append_inj h.table_fits ht (List.append_cancel_left hkey)

/-- Places that fit have different keys. -/
theorem key_injective {a b : Slot} (ha : a.Fits) (hb : b.Fits) (h : a.key layout = b.key layout) :
    a = b := by
  rcases table_eq_of_key ha hb.table_fits h with ⟨htable, htail⟩
  rcases tags with ⟨hs, hr, hi, he⟩
  cases a <;> cases b
  case schema.schema t u =>
    rw [show t = u from htable]
  case row.row t id u id' =>
    have hid := Key.encodeComponent_inj (ha id (by simp [components]))
      (hb id' (by simp [components])) (List.append_cancel_left htail)
    rw [show t = u from htable, hid]
  case definition.definition t i u j =>
    have hname := Key.encodeName_append_inj (ha _ (by simp [components]))
      (hb _ (by simp [components])) (List.append_cancel_left htail)
    rw [show t = u from htable, hname.1]
  case entry.entry t i v id u j v' id' =>
    have hname := Key.encodeName_append_inj (ha _ (by simp [components]))
      (hb _ (by simp [components])) (List.append_cancel_left htail)
    have hvalue := Key.encodeComponent_append_inj (ha v (by simp [components]))
      (hb v' (by simp [components])) hname.2
    have hid := Key.encodeComponent_inj (ha id (by simp [components]))
      (hb id' (by simp [components])) hvalue.2
    rw [show t = u from htable, hname.1, hvalue.1, hid]
  -- Places of different families differ in what follows the table's name.
  all_goals simp [tail, hs, hr, hi, he] at htail

theorem key_ne {a b : Slot} (ha : a.Fits) (hb : b.Fits) (h : a ≠ b) : a.key layout ≠ b.key layout :=
  fun hkey => h (key_injective ha hb hkey)

/-- The key of a place starts with the prefix of its table. -/
theorem carries_own_tablePrefix (layout : KeyLayout) (slot : Slot) :
    Bytes.carries (layout.tablePrefix slot.table) (slot.key layout) = true :=
  Bytes.carries_append _ _

/-- The places that the prefix of a table stands for. -/
theorem carries_tablePrefix {slot : Slot} (h : slot.Fits) {table : String}
    (ht : Key.fits (Text.encode table) = true) :
    Bytes.carries (layout.tablePrefix table) (slot.key layout) = true ↔ slot.table = table := by
  rw [Bytes.carries_iff]
  constructor
  · rintro ⟨rest, hkey⟩
    exact (table_eq_of_key h ht hkey).1
  · rintro rfl
    exact ⟨slot.tail, rfl⟩

/-- The places that the prefix of a table's rows stands for. -/
theorem carries_rowPrefix {slot : Slot} (h : slot.Fits) {table : String}
    (ht : Key.fits (Text.encode table) = true) :
    Bytes.carries (layout.rowPrefix table) (slot.key layout) = true ↔ ∃ id, slot = row table id := by
  rw [Bytes.carries_iff]
  constructor
  · rintro ⟨rest, hkey⟩
    rw [KeyLayout.rowPrefix, List.append_assoc] at hkey
    rcases table_eq_of_key h ht hkey with ⟨htable, htail⟩
    rcases tags with ⟨hs, hr, hi, he⟩
    cases slot
    case row t id => exact ⟨id, by rw [show t = table from htable]⟩
    all_goals simp [tail, hs, hr, hi, he] at htail
  · rintro ⟨id, rfl⟩
    exact ⟨Key.encodeComponent id, (rowKey_eq table id).symm⟩

/-- The places that the prefix of a table's index definitions stands for. -/
theorem carries_indexMetaPrefix {slot : Slot} (h : slot.Fits) {table : String}
    (ht : Key.fits (Text.encode table) = true) :
    Bytes.carries (layout.indexMetaPrefix table) (slot.key layout) = true
      ↔ ∃ index, slot = definition table index := by
  rw [Bytes.carries_iff]
  constructor
  · rintro ⟨rest, hkey⟩
    rw [KeyLayout.indexMetaPrefix, List.append_assoc] at hkey
    rcases table_eq_of_key h ht hkey with ⟨htable, htail⟩
    rcases tags with ⟨hs, hr, hi, he⟩
    cases slot
    case definition t i => exact ⟨i, by rw [show t = table from htable]⟩
    all_goals simp [tail, hs, hr, hi, he] at htail
  · rintro ⟨index, rfl⟩
    refine ⟨Key.encodeName index ++ KeyLayout.metaTag, ?_⟩
    rw [← indexMetaKey_eq, KeyLayout.indexMetaKey, List.append_assoc]

/-- The places that the prefix of an index's entries stands for. -/
theorem carries_indexPrefix {slot : Slot} (h : slot.Fits) {table index : String}
    (ht : Key.fits (Text.encode table) = true) (hi : Key.fits (Text.encode index) = true) :
    Bytes.carries (layout.indexPrefix table index) (slot.key layout) = true
      ↔ ∃ value id, slot = entry table index value id := by
  rw [Bytes.carries_iff]
  constructor
  · rintro ⟨rest, hkey⟩
    simp only [KeyLayout.indexPrefix, List.append_assoc] at hkey
    rcases table_eq_of_key h ht hkey with ⟨htable, htail⟩
    rcases tags with ⟨hs, hr, hx, he⟩
    -- The tags after the name of the table tell an entry from the other slots.
    cases slot
    case entry t i value id =>
      have hname := Key.encodeName_append_inj (h _ (by simp [components])) hi
        (List.append_cancel_left htail)
      exact ⟨value, id, by rw [show t = table from htable, hname.1]⟩
    all_goals simp [tail, hs, hr, hx, he] at htail
  · rintro ⟨value, id, rfl⟩
    refine ⟨Key.encodeComponent value ++ Key.encodeComponent id, ?_⟩
    rw [← entryKey_eq, List.append_assoc]

/-- The places that the prefix of one value in an index stands for. -/
theorem carries_valuePrefix {slot : Slot} (h : slot.Fits) {table index : String} {value : Bytes}
    (ht : Key.fits (Text.encode table) = true) (hi : Key.fits (Text.encode index) = true)
    (hv : Key.fits value = true) :
    Bytes.carries (layout.indexPrefix table index ++ Key.encodeComponent value)
        (slot.key layout) = true
      ↔ ∃ id, slot = entry table index value id := by
  rw [Bytes.carries_iff]
  constructor
  · rintro ⟨rest, hkey⟩
    have hindex : Bytes.carries (layout.indexPrefix table index) (slot.key layout) = true :=
      Bytes.carries_of_append (Bytes.carries_iff.mpr ⟨rest, hkey⟩)
    rcases (carries_indexPrefix h ht hi).mp hindex with ⟨other, id, rfl⟩
    rw [← entryKey_eq, List.append_assoc, List.append_assoc] at hkey
    have hvalue := Key.encodeComponent_append_inj (h other (by simp [components])) hv
      (List.append_cancel_left hkey)
    exact ⟨id, by rw [hvalue.1]⟩
  · rintro ⟨id, rfl⟩
    exact ⟨Key.encodeComponent id, (entryKey_eq table index value id).symm⟩

end Slot

namespace KeyLayout

variable {layout : KeyLayout} {table index : String}

theorem schemaKey?_ok {key : Bytes} (h : layout.schemaKey? table = .ok key) :
    key = (Slot.schema table).key layout ∧ (Slot.schema table).Fits :=
  Key.ofComponents_ok h

theorem schemaKey?_fits (h : (Slot.schema table).Fits) :
    layout.schemaKey? table = .ok ((Slot.schema table).key layout) :=
  Key.ofComponents_fit h _

theorem rowKey?_ok {id key : Bytes} (h : layout.rowKey? table id = .ok key) :
    key = (Slot.row table id).key layout ∧ (Slot.row table id).Fits := by
  rcases Key.ofComponents_ok h with ⟨hkey, hfits⟩
  exact ⟨by rw [hkey, Slot.rowKey_eq], hfits⟩

theorem rowKey?_fits {id : Bytes} (h : (Slot.row table id).Fits) :
    layout.rowKey? table id = .ok ((Slot.row table id).key layout) := by
  rw [← Slot.rowKey_eq]
  exact Key.ofComponents_fit h _

theorem rowPrefix?_fits (h : Key.fits (Text.encode table) = true) :
    layout.rowPrefix? table = .ok (layout.rowPrefix table) :=
  Key.ofComponents_fit (by simpa using h) _

theorem indexMetaKey?_ok {key : Bytes}
    (h : layout.indexMetaKey? table index = .ok key) :
    key = (Slot.definition table index).key layout ∧ (Slot.definition table index).Fits := by
  rcases Key.ofComponents_ok h with ⟨hkey, hfits⟩
  exact ⟨by rw [hkey, Slot.indexMetaKey_eq], hfits⟩

theorem indexMetaKey?_fits (h : (Slot.definition table index).Fits) :
    layout.indexMetaKey? table index = .ok ((Slot.definition table index).key layout) := by
  rw [← Slot.indexMetaKey_eq]
  exact Key.ofComponents_fit h _

theorem indexMetaPrefix?_fits (h : Key.fits (Text.encode table) = true) :
    layout.indexMetaPrefix? table = .ok (layout.indexMetaPrefix table) :=
  Key.ofComponents_fit (by simpa using h) _

end KeyLayout

end TableStore
