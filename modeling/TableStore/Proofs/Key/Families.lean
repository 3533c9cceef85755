import TableStore.Proofs.Except
import TableStore.Proofs.Key.Slot

/-!
# Families of Keys

What the keys of a layout say about the names, ids and values they are built
from. Names and ids may be any text: the tags, a slash, the bytes of a length.
None of it can be taken for the layout's own bytes, because a component is read
by its length.

An address is what a key is asked for with, before anything is encoded. It has
a place in the store if its value has bytes and all components have a place in
a key, and everything here comes down to the places. Only values lose something
on the way: two of them that are encoded alike share their keys.

## Main definitions

* `Address`: What a key is built from.
* `Address.key?`: The key of an address, if it has one.
* `Address.Alike`: Addresses with the same names, ids and value bytes.
* `Address.Fits`: An address whose value has bytes and whose components all
  have a place in a key.
* `KeyLayout.Picks`: A prefix that the keys of one family start with, and no
  others.

## Theorems

* `Address.key?_eq_ok`: A key is that of the address's place.
* `KeyLayout.indexValuePrefix_ok`: The prefix of one value in an index.
* `KeyLayout.unambiguous`: Keys and their prefixes tell addresses apart.
-/

namespace TableStore

namespace KeyLayout

variable {layout : KeyLayout} {table index : String}

/-- The prefix of one value in an index is built from the bytes of the
    value. -/
theorem indexValuePrefix_encoded {v : Value} {value : Bytes}
    (h : Key.encodeIndexValue v = .ok value) (layout : KeyLayout) (table index : String) :
    layout.indexValuePrefix table index v
      = Key.ofComponents [Text.encode table, Text.encode index, value]
        (layout.indexPrefix table index ++ Key.encodeComponent value) := by
  rw [indexValuePrefix, h]
  exact Key.ofComponents_bind _ _ _ _

theorem indexValuePrefix_ok {v : Value} {start : Bytes}
    (h : layout.indexValuePrefix table index v = .ok start) :
    ∃ value, start = layout.indexPrefix table index ++ Key.encodeComponent value := by
  rcases exists_of_bind_eq_ok h with ⟨names, hnames, hrest⟩
  rcases exists_of_bind_eq_ok hrest with ⟨value, hvalue, -⟩
  rw [indexValuePrefix_encoded hvalue] at h
  exact ⟨value, (Key.ofComponents_ok h).1⟩

/-- The key of an entry is that of its place. -/
theorem indexKey_encoded {v : Value} {value : Bytes} (h : Key.encodeIndexValue v = .ok value)
    (layout : KeyLayout) (table index : String) (id : Bytes) :
    layout.indexKey table index v id
      = Key.ofComponents (Slot.entry table index value id).components
        ((Slot.entry table index value id).key layout) := by
  rw [indexKey, indexValuePrefix_encoded h, Key.ofComponents_bind, Slot.entryKey_eq]
  rfl

/-- There is a key only if the value has bytes. -/
theorem exists_of_indexKey_eq_ok {v : Value} {id key : Bytes}
    (h : layout.indexKey table index v id = .ok key) :
    ∃ value, Key.encodeIndexValue v = .ok value := by
  rcases exists_of_bind_eq_ok h with ⟨start, hstart, -⟩
  rcases exists_of_bind_eq_ok hstart with ⟨names, -, hvalue⟩
  rcases exists_of_bind_eq_ok hvalue with ⟨value, hvalue, -⟩
  exact ⟨value, hvalue⟩

/-- The key of an entry that is asked for is that of a place that fits. -/
theorem indexKey_ok {v : Value} {id key : Bytes} (h : layout.indexKey table index v id = .ok key) :
    ∃ value, Key.encodeIndexValue v = .ok value ∧ key = (Slot.entry table index value id).key layout
      ∧ (Slot.entry table index value id).Fits := by
  rcases exists_of_indexKey_eq_ok h with ⟨value, hvalue⟩
  rw [indexKey_encoded hvalue] at h
  rcases Key.ofComponents_ok h with ⟨hkey, hfits⟩
  exact ⟨value, hvalue, hkey, hfits⟩

end KeyLayout

/-- What a key is built from. -/
inductive Address where
  | schema (table : String)
  | row (table id : String)
  | definition (table index : String)
  | entry (table index : String) (value : Value) (id : String)

namespace Address

/-- The table that an address belongs to. -/
def table : Address → String
  | schema table => table
  | row table _ => table
  | definition table _ => table
  | entry table _ _ _ => table

/-- The key of an address, if it has one. -/
def key? (layout : KeyLayout) : Address → Except Fault Bytes
  | schema table => layout.schemaKey? table
  | row table id => layout.rowKey? table (Text.encode id)
  | definition table index => layout.indexMetaKey? table index
  | entry table index value id => layout.indexKey table index value (Text.encode id)

/-- The place of an address, if its value has bytes. -/
def slot? : Address → Except Fault Slot
  | schema table => .ok (.schema table)
  | row table id => .ok (.row table (Text.encode id))
  | definition table index => .ok (.definition table index)
  | entry table index value id =>
    (Key.encodeIndexValue value).map fun bytes => .entry table index bytes (Text.encode id)

/-- Addresses of one family with the same names and ids, and with values that
    are encoded alike. -/
def Alike : Address → Address → Prop
  | schema table, schema table' => table = table'
  | row table id, row table' id' => table = table' ∧ id = id'
  | definition table index, definition table' index' => table = table' ∧ index = index'
  | entry table index value id, entry table' index' value' id' =>
    table = table' ∧ index = index' ∧ Key.encodeIndexValue value = Key.encodeIndexValue value'
      ∧ id = id'
  | _, _ => False

/-- An address whose value has bytes and whose components all have a place in a
    key. -/
def Fits (address : Address) : Prop :=
  ∃ slot, address.slot? = .ok slot ∧ slot.Fits

variable {layout : KeyLayout} {a b : Address} {slot : Slot} {key : Bytes}

/-- An address and its place are of one family, with the same names and the
    bytes of the same value and id. -/
theorem slot?_cases (h : a.slot? = .ok slot) :
    (∃ table, a = schema table ∧ slot = .schema table)
      ∨ (∃ table id, a = row table id ∧ slot = .row table (Text.encode id))
      ∨ (∃ table index, a = definition table index ∧ slot = .definition table index)
      ∨ ∃ table index value id bytes, Key.encodeIndexValue value = .ok bytes
        ∧ a = entry table index value id ∧ slot = .entry table index bytes (Text.encode id) := by
  cases a with
  | schema table => exact Or.inl ⟨table, rfl, (Except.ok.inj h).symm⟩
  | row table id => exact Or.inr (Or.inl ⟨table, id, rfl, (Except.ok.inj h).symm⟩)
  | definition table index =>
    exact Or.inr (Or.inr (Or.inl ⟨table, index, rfl, (Except.ok.inj h).symm⟩))
  | entry table index value id =>
    rcases exists_of_map_eq_ok h with ⟨bytes, hbytes, hslot⟩
    exact Or.inr (Or.inr (Or.inr ⟨table, index, value, id, bytes, hbytes, rfl, hslot.symm⟩))

/-- Addresses are alike exactly if they have the same place. -/
theorem alike_iff {place : Slot} (ha : a.slot? = .ok slot) (hb : b.slot? = .ok place) :
    a.Alike b ↔ slot = place := by
  have hid : ∀ id id' : String, Text.encode id = Text.encode id' ↔ id = id' := fun id id' =>
    ⟨fun h => Text.encode_injective h, congrArg Text.encode⟩
  rcases slot?_cases ha with ⟨t, rfl, rfl⟩ | ⟨t, id, rfl, rfl⟩ | ⟨t, i, rfl, rfl⟩
      | ⟨t, i, v, id, bytes, hbytes, rfl, rfl⟩ <;>
    rcases slot?_cases hb with ⟨t', rfl, rfl⟩ | ⟨t', id', rfl, rfl⟩ | ⟨t', i', rfl, rfl⟩
      | ⟨t', i', v', id', bytes', hbytes', rfl, rfl⟩
  -- The bytes of texts tell them apart, while values count by their bytes.
  case inr.inr.inr.inr.inr.inr => simp [Alike, hbytes, hbytes', hid]
  all_goals simp [Alike, hid]

/-- A key is that of the address's place. -/
theorem key?_of_slot (h : a.slot? = .ok slot) :
    a.key? layout = Key.ofComponents slot.components (slot.key layout) := by
  cases a with
  | entry table index value id =>
    rcases exists_of_map_eq_ok h with ⟨bytes, hbytes, rfl⟩
    exact KeyLayout.indexKey_encoded hbytes layout table index (Text.encode id)
  | schema table =>
    rw [← Except.ok.inj h]
    rfl
  | row table id =>
    rw [← Except.ok.inj h, ← Slot.rowKey_eq]
    rfl
  | definition table index =>
    rw [← Except.ok.inj h, ← Slot.indexMetaKey_eq]
    rfl

theorem slot?_of_key {key : Bytes} (h : a.key? layout = .ok key) : ∃ slot, a.slot? = .ok slot := by
  cases a with
  | entry table index value id =>
    rcases KeyLayout.exists_of_indexKey_eq_ok h with ⟨bytes, hbytes⟩
    exact ⟨_, by rw [slot?, hbytes, ok_map]⟩
  | _ => exact ⟨_, rfl⟩

/-- An address has a key exactly if it has a place whose components fit. -/
theorem key?_eq_ok : a.key? layout = .ok key ↔
    ∃ slot, a.slot? = .ok slot ∧ slot.Fits ∧ slot.key layout = key := by
  constructor
  · intro h
    rcases slot?_of_key h with ⟨slot, hslot⟩
    rw [key?_of_slot hslot] at h
    rcases Key.ofComponents_ok h with ⟨hkey, hfits⟩
    exact ⟨slot, hslot, hfits, hkey.symm⟩
  · rintro ⟨slot, hslot, hfits, rfl⟩
    rw [key?_of_slot hslot, Key.ofComponents_fit hfits]

end Address

namespace KeyLayout

/-- A prefix that the keys of one family start with, and no other keys. -/
def Picks (layout : KeyLayout) (start? : Except Fault Bytes) (family : Address → Prop) : Prop :=
  ∃ start, start? = .ok start ∧ ∀ (a : Address) (key : Bytes), a.key? layout = .ok key →
    (Bytes.carries start key = true ↔ family a)

variable {layout : KeyLayout} {table index : String}

/-- A prefix that picks the places of a family picks its addresses. -/
theorem picks_of_slots {start : Bytes} {places : Slot → Prop} {family : Address → Prop}
    {start? : Except Fault Bytes} (hstart : start? = .ok start)
    (hplaces : ∀ slot : Slot, slot.Fits →
      (Bytes.carries start (slot.key layout) = true ↔ places slot))
    (hfamily : ∀ (a : Address) (slot : Slot), a.slot? = .ok slot → (places slot ↔ family a)) :
    layout.Picks start? family := by
  refine ⟨start, hstart, fun a key hkey => ?_⟩
  rcases Address.key?_eq_ok.mp hkey with ⟨slot, hslot, hfits, rfl⟩
  exact (hplaces slot hfits).trans (hfamily a slot hslot)

theorem picks_table (ht : Key.fits (Text.encode table) = true) :
    layout.Picks (.ok (layout.tablePrefix table)) fun a => a.table = table := by
  refine picks_of_slots rfl (fun slot h => Slot.carries_tablePrefix h ht) fun a slot hslot => ?_
  rcases Address.slot?_cases hslot with ⟨t, rfl, rfl⟩ | ⟨t, id, rfl, rfl⟩ | ⟨t, i, rfl, rfl⟩
    | ⟨t, i, v, id, bytes, -, rfl, rfl⟩ <;> rfl

theorem picks_rows (ht : Key.fits (Text.encode table) = true) :
    layout.Picks (layout.rowPrefix? table) fun a => ∃ id, a = .row table id := by
  refine picks_of_slots (Key.ofComponents_fit (by simp [ht]) _)
    (fun slot h => Slot.carries_rowPrefix h ht) fun a slot hslot => ?_
  rcases Address.slot?_cases hslot with ⟨t, rfl, rfl⟩ | ⟨t, id, rfl, rfl⟩ | ⟨t, i, rfl, rfl⟩
    | ⟨t, i, v, id, bytes, -, rfl, rfl⟩ <;> simp

theorem picks_definitions (ht : Key.fits (Text.encode table) = true) :
    layout.Picks (layout.indexMetaPrefix? table) fun a => ∃ index, a = .definition table index := by
  refine picks_of_slots (Key.ofComponents_fit (by simp [ht]) _)
    (fun slot h => Slot.carries_indexMetaPrefix h ht) fun a slot hslot => ?_
  rcases Address.slot?_cases hslot with ⟨t, rfl, rfl⟩ | ⟨t, id, rfl, rfl⟩ | ⟨t, i, rfl, rfl⟩
    | ⟨t, i, v, id, bytes, -, rfl, rfl⟩ <;> simp

theorem picks_entries (ht : Key.fits (Text.encode table) = true)
    (hi : Key.fits (Text.encode index) = true) :
    layout.Picks (layout.indexPrefix? table index)
      fun a => ∃ value id, a = .entry table index value id := by
  refine picks_of_slots (Key.ofComponents_fit (by simp [ht, hi]) _)
    (fun slot h => Slot.carries_indexPrefix h ht hi) fun a slot hslot => ?_
  rcases Address.slot?_cases hslot with ⟨t, rfl, rfl⟩ | ⟨t, id, rfl, rfl⟩ | ⟨t, i, rfl, rfl⟩
    | ⟨t, i, v, id, bytes, -, rfl, rfl⟩ <;> simp

/-- The entries that share the prefix of a value are those whose values are
    encoded like it. -/
theorem picks_value {v : Value} {bytes : Bytes} (hv : Key.encodeIndexValue v = .ok bytes)
    (ht : Key.fits (Text.encode table) = true) (hi : Key.fits (Text.encode index) = true)
    (hbytes : Key.fits bytes = true) :
    layout.Picks (layout.indexValuePrefix table index v) fun a =>
      ∃ value id, a = .entry table index value id ∧ Key.encodeIndexValue value = .ok bytes := by
  have hstart : layout.indexValuePrefix table index v
      = .ok (layout.indexPrefix table index ++ Key.encodeComponent bytes) := by
    rw [indexValuePrefix_encoded hv, Key.ofComponents_fit (by simp [ht, hi, hbytes])]
  refine picks_of_slots hstart (fun slot h => Slot.carries_valuePrefix h ht hi hbytes)
    fun a slot hslot => ?_
  rcases Address.slot?_cases hslot with ⟨t, rfl, rfl⟩ | ⟨t, id, rfl, rfl⟩ | ⟨t, i, rfl, rfl⟩
    | ⟨t, i, v, id, other, hother, rfl, rfl⟩
  case inr.inr.inr => simp [hother, and_assoc]
  all_goals simp

/-- Every address that fits has a key, keys are equal only if their addresses
    are alike, and the prefixes of a table, of its rows, of its index
    definitions, of an index and of a value in an index stand for just the keys
    of those. -/
theorem unambiguous (layout : KeyLayout) :
    (∀ a : Address, a.Fits → ∃ key, a.key? layout = .ok key)
      ∧ (∀ (a b : Address) (key key' : Bytes), a.key? layout = .ok key → b.key? layout = .ok key' →
        (key = key' ↔ a.Alike b))
      ∧ ∀ table, Key.fits (Text.encode table) = true →
        layout.Picks (.ok (layout.tablePrefix table)) (fun a => a.table = table)
          ∧ layout.Picks (layout.rowPrefix? table) (fun a => ∃ id, a = .row table id)
          ∧ layout.Picks (layout.indexMetaPrefix? table) (fun a => ∃ index, a = .definition table index)
          ∧ ∀ index, Key.fits (Text.encode index) = true →
            layout.Picks (layout.indexPrefix? table index)
                (fun a => ∃ value id, a = .entry table index value id)
              ∧ ∀ v bytes, Key.encodeIndexValue v = .ok bytes → Key.fits bytes = true →
                layout.Picks (layout.indexValuePrefix table index v) fun a =>
                  ∃ value id, a = .entry table index value id
                    ∧ Key.encodeIndexValue value = .ok bytes := by
  refine ⟨fun a hfits => ?_, fun a b key key' ha hb => ?_, fun table ht => ?_⟩
  · rcases hfits with ⟨slot, hslot, hfits⟩
    exact ⟨slot.key layout, Address.key?_eq_ok.mpr ⟨slot, hslot, hfits, rfl⟩⟩
  · rcases Address.key?_eq_ok.mp ha with ⟨slot, hslot, hfits, rfl⟩
    rcases Address.key?_eq_ok.mp hb with ⟨place, hplace, hfits', rfl⟩
    -- Different places have different keys, so it is the places that are compared.
    rw [Address.alike_iff hslot hplace]
    exact ⟨fun h => Slot.key_injective hfits hfits' h, fun h => by rw [h]⟩
  · refine ⟨picks_table ht, picks_rows ht, picks_definitions ht, fun index hi => ?_⟩
    exact ⟨picks_entries ht hi, fun v bytes hv hbytes => picks_value hv ht hi hbytes⟩

/-- An id that spells the tag of rows is no reason to take an entry for a row,
    and a table whose name starts like another one's is not part of it. -/
theorem unambiguous_lookalikes :
    let layout : KeyLayout := ⟨defaultRoot⟩
    ∃ key key', (Address.entry "t" "i" (.text "x") "/rows/x").key? layout = .ok key
      ∧ (Address.row "t/rows/" "x").key? layout = .ok key' ∧ key ≠ key'
      ∧ layout.Picks (layout.rowPrefix? "t") (fun a => ∃ id, a = .row "t" id)
      ∧ layout.Picks (layout.indexValuePrefix "t" "i" (.text "x")) fun a =>
        ∃ value id, a = .entry "t" "i" value id
          ∧ Key.encodeIndexValue value = .ok (Text.encode "s:" ++ Text.encode "x") := by
  intro layout
  rcases unambiguous layout with ⟨hkeys, hsame, hpicks⟩
  have hentry : (Address.entry "t" "i" (.text "x") "/rows/x").Fits :=
    ⟨.entry "t" "i" (Text.encode "s:x") (Text.encode "/rows/x"), rfl, by decide⟩
  have hrow : (Address.row "t/rows/" "x").Fits :=
    ⟨.row "t/rows/" (Text.encode "x"), rfl, by decide⟩
  rcases hkeys _ hentry with ⟨key, hkey⟩
  rcases hkeys _ hrow with ⟨key', hkey'⟩
  rcases hpicks "t" (by decide) with ⟨-, hrows, -, hindexes⟩
  have hvalue := (hindexes "i" (by decide)).2 (.text "x") _ rfl (by decide)
  exact ⟨key, key', hkey, hkey', (hsame _ _ _ _ hkey hkey').not.mpr id, hrows, hvalue⟩

end KeyLayout

end TableStore
