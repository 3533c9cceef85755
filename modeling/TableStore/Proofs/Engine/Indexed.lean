import TableStore.Proofs.Engine.Entries
import TableStore.Row

/-!
# Entries That Agree With Rows

For every row an index has one entry, under the bytes of the row's value in the
covered column, and no entry if that value is null. The property is stated for
one index and one id at a time: `EntriesOf` says that the entries for an id are
those of a value. A row that is not there counts as one whose values are all
null, so an insertion, a change and a removal are all a move from one value to
another.

A move only touches entries of its index and its id. Which keys a step may
change is said by `SameExcept`, for keys and not only for places, so that it
also covers what is outside the root.

## Main definitions

* `Contents.SameExcept`: A change of certain places only.
* `Contents.cell`: The value of a row in a column.
* `Contents.EntriesOf`: The entries for an id are those of a value.
* `Description.IndexedIn`, `Description.Indexed`: The entries of a table, or all
  entries, agree with the rows.

## Theorems

* `Index.move_succeeds`: What a move leaves.
-/

namespace TableStore

open Access

variable {layout : KeyLayout} {table index : String}

/-- Contents that differ in the keys of certain places only. -/
def Contents.SameExcept (layout : KeyLayout) (changed : Slot → Prop) (c c' : Contents) : Prop :=
  ∀ key, (∀ slot : Slot, slot.Fits → changed slot → key ≠ slot.key layout) →
    c'.get? key = c.get? key

namespace Contents.SameExcept

variable {changed changed' : Slot → Prop} {a b c : Contents}

theorem refl (changed : Slot → Prop) (c : Contents) : c.SameExcept layout changed c :=
  fun _ _ => rfl

theorem trans (hab : a.SameExcept layout changed b) (hbc : b.SameExcept layout changed c) :
    a.SameExcept layout changed c :=
  fun key hkey => (hbc key hkey).trans (hab key hkey)

theorem imp (h : a.SameExcept layout changed b) (hchanged : ∀ slot, changed slot → changed' slot) :
    a.SameExcept layout changed' b :=
  fun key hkey => h key fun slot hfits hslot => hkey slot hfits (hchanged slot hslot)

/-- A place that is not among the changed ones. -/
theorem get?_slot (h : a.SameExcept layout changed b) {slot : Slot} (hfits : slot.Fits)
    (hslot : ¬changed slot) : b.get? (slot.key layout) = a.get? (slot.key layout) := by
  refine h _ fun other hother hchanged hkey => ?_
  rw [Slot.key_injective hfits hother hkey] at hslot
  exact hslot hchanged

theorem insert {slot : Slot} (hfits : slot.Fits) (hslot : changed slot) (value : Bytes) :
    c.SameExcept layout changed (c.insert (slot.key layout) value) :=
  fun _ hkey => get?_insert_other value c (hkey slot hfits hslot)

theorem erase {slot : Slot} (hfits : slot.Fits) (hslot : changed slot) :
    c.SameExcept layout changed (c.erase (slot.key layout)) :=
  fun _ hkey => get?_erase_other c (hkey slot hfits hslot)

end Contents.SameExcept

namespace Contents

/-- The row that is stored under an id. -/
def rowAt (layout : KeyLayout) (c : Contents) (table : String) (id : Bytes) : Option Row :=
  (c.get? ((Slot.row table id).key layout)).bind fun data => (Row.ofBytes data).toOption

/-- The value of the row under an id in a column, and null if there is none. -/
def cell (layout : KeyLayout) (c : Contents) (table : String) (id : Bytes) (column : String) :
    Value :=
  ((c.rowAt layout table id).map fun row => Row.value row column).getD .null

/-- The entries of an index for an id are those of a value: one entry under the
    bytes of the value, which null does not have. -/
def EntriesOf (layout : KeyLayout) (c : Contents) (table index : String) (id : Bytes) (v : Value) :
    Prop :=
  ∀ value data, (Slot.entry table index value id).Fits →
    (c.get? ((Slot.entry table index value id).key layout) = some data
      ↔ data = id ∧ Key.encodeIndexValue v = .ok value)

/-- Entries do not depend on anything but the entries of the index and the
    id. -/
theorem EntriesOf.congr {c c' : Contents} {id : Bytes} {v : Value}
    (h : c.EntriesOf layout table index id v)
    (hsame : ∀ value, (Slot.entry table index value id).Fits →
      c'.get? ((Slot.entry table index value id).key layout)
        = c.get? ((Slot.entry table index value id).key layout)) :
    c'.EntriesOf layout table index id v := by
  intro value data hfits
  rw [hsame value hfits]
  exact h value data hfits

/-- Equal values have the same entries. -/
theorem EntriesOf.of_encode_eq {c : Contents} {id : Bytes} {v v' : Value}
    (h : c.EntriesOf layout table index id v)
    (heq : Key.encodeIndexValue v = Key.encodeIndexValue v') :
    c.EntriesOf layout table index id v' := by
  intro value data hfits
  rw [← heq]
  exact h value data hfits

end Contents

/-- The entries of the indexes of a table agree with its rows. -/
def Description.IndexedIn (d : Description) (layout : KeyLayout) (c : Contents) (table : String) :
    Prop :=
  ∀ index column, d.covers table index = some column →
    ∀ id, c.EntriesOf layout table index id (c.cell layout table id column)

/-- All entries of the indexes of a description agree with the rows. -/
def Description.Indexed (d : Description) (layout : KeyLayout) (c : Contents) : Prop :=
  ∀ table, d.IndexedIn layout c table

/-- The entries of one index for one id. -/
def Slot.IsEntryOf (table index : String) (id : Bytes) (slot : Slot) : Prop :=
  ∃ value, slot = entry table index value id

/-- A row and its entries in all indexes. -/
def Slot.IsAbout (table : String) (id : Bytes) (slot : Slot) : Prop :=
  slot = row table id ∨ ∃ index, slot.IsEntryOf table index id

/-- A step that changes certain places only, draws no id and logs nothing. -/
structure World.StepsWithin (layout : KeyLayout) (changed : Slot → Prop) (w w' : World) : Prop where
  store : w.store.SameExcept layout changed w'.store
  ids : w'.ids = w.ids
  notes : w'.notes = w.notes

namespace World.StepsWithin

variable {changed changed' : Slot → Prop} {w w' w'' : World}

theorem refl (changed : Slot → Prop) (w : World) : w.StepsWithin layout changed w :=
  ⟨Contents.SameExcept.refl changed w.store, rfl, rfl⟩

theorem trans (h : w.StepsWithin layout changed w') (h' : w'.StepsWithin layout changed w'') :
    w.StepsWithin layout changed w'' :=
  ⟨h.store.trans h'.store, h'.ids.trans h.ids, h'.notes.trans h.notes⟩

theorem imp (h : w.StepsWithin layout changed w') (hchanged : ∀ slot, changed slot → changed' slot) :
    w.StepsWithin layout changed' w' :=
  ⟨h.store.imp hchanged, h.ids, h.notes⟩

end World.StepsWithin

namespace Index

variable {w : World}

/-- A value that is not null has a place for its entry, up to limits. -/
theorem entryKey_succeeds {v : Value} (hv : v.isNull = false) (name : String) :
    (lift (entryKey layout table index v (.text name))).Succeeds w fun key w' => w' = w
      ∧ ∃ value, Key.encodeIndexValue v = .ok value
        ∧ key = (Slot.entry table index value (Text.encode name)).key layout
        ∧ (Slot.entry table index value (Text.encode name)).Fits := by
  refine yields_lift (fun fault hfault => ?_) fun key hkey => ⟨rfl, ?_⟩
  · rcases entryKey_error hfault with hnull | hlimit | hid
    · rw [hv] at hnull
      exact absurd hnull Bool.false_ne_true
    · exact hlimit
    · exact absurd hid (by simp [RowId.toKey])
  · rcases entryKey_ok hkey with ⟨value, idBytes, hvalue, hid, hslot, hfits⟩
    rw [← Except.ok.inj hid] at hslot hfits
    exact ⟨value, hvalue, hslot, hfits⟩

/-- Without its one entry an id has none. -/
theorem removeEntry_succeeds {v : Value} (hv : v.isNull = false) (name : String)
    (h : w.store.EntriesOf layout table index (Text.encode name) v) :
    (removeEntry layout table index v (.text name)).Succeeds w fun _ w' =>
      w.StepsWithin layout (Slot.IsEntryOf table index (Text.encode name)) w'
        ∧ w'.store.EntriesOf layout table index (Text.encode name) .null := by
  refine (entryKey_succeeds hv name).bind ?_
  rintro key w' ⟨rfl, value, hvalue, rfl, hfits⟩
  refine yields_remove ⟨⟨Contents.SameExcept.erase hfits ⟨value, rfl⟩, rfl, rfl⟩, ?_⟩
  intro other data hother
  -- Null has no bytes, so its entries are none.
  have hnone : Key.encodeIndexValue .null ≠ .ok other := by simp [Key.encodeIndexValue]
  rw [Contents.get?_erase]
  split
  · exact ⟨fun hd => absurd hd (by simp), fun hd => absurd hd.2 hnone⟩
  · rename_i hne
    refine ⟨fun hd => ?_, fun hd => absurd hd.2 hnone⟩
    rcases (h other data hother).mp hd with ⟨-, hencode⟩
    rw [hvalue] at hencode
    rw [Except.ok.inj hencode] at hne
    exact absurd rfl hne

/-- An id without entries gets the one of a value. -/
theorem addEntry_succeeds {v : Value} (hv : v.isNull = false) (name : String)
    (h : w.store.EntriesOf layout table index (Text.encode name) .null) :
    (addEntry layout table index v (.text name)).Succeeds w fun _ w' =>
      w.StepsWithin layout (Slot.IsEntryOf table index (Text.encode name)) w'
        ∧ w'.store.EntriesOf layout table index (Text.encode name) v := by
  refine (entryKey_succeeds hv name).bind ?_
  rintro key w' ⟨rfl, value, hvalue, rfl, hfits⟩
  -- There was no entry of this id, so the new one is the only one.
  refine yields_store ⟨⟨Contents.SameExcept.insert hfits ⟨value, rfl⟩ _, rfl, rfl⟩, ?_⟩
  intro other data hother
  rw [Contents.get?_insert, hvalue]
  split
  · rename_i heq
    have hslot := Slot.key_injective hother hfits heq
    simp only [Slot.entry.injEq, true_and, and_true] at hslot
    rw [hslot, Option.some.injEq]
    exact ⟨fun hd => ⟨hd.symm, rfl⟩, fun hd => hd.1.symm⟩
  · rename_i hne
    refine ⟨fun hd => ?_, fun hd => ?_⟩
    · have hnone := ((h other data hother).mp hd).2
      exact absurd hnone (by simp [Key.encodeIndexValue])
    · rw [Except.ok.inj hd.2] at hne
      exact absurd rfl hne

/-- What a move leaves: the entries for the id are those of the new value. -/
theorem move_succeeds (old new : Value) (name : String)
    (h : w.store.EntriesOf layout table index (Text.encode name) old) :
    (move layout table index old new (.text name)).Succeeds w fun _ w' =>
      w.StepsWithin layout (Slot.IsEntryOf table index (Text.encode name)) w'
        ∧ w'.store.EntriesOf layout table index (Text.encode name) new := by
  rw [move_eq]
  split
  · -- Equal values have the same bytes, so the entry is already the right one.
    rename_i hequal
    refine yields_pure ⟨World.StepsWithin.refl _ w, ?_⟩
    exact h.of_encode_eq (Key.encodeIndexValue_of_equals hequal)
  · have hremove : (if old.isNull then pure () else
        removeEntry layout table index old (.text name)).Succeeds w fun _ w' =>
          w.StepsWithin layout (Slot.IsEntryOf table index (Text.encode name)) w'
            ∧ w'.store.EntriesOf layout table index (Text.encode name) .null := by
      split
      · rename_i hnull
        rw [Value.eq_null_of_isNull hnull] at h
        exact yields_pure ⟨World.StepsWithin.refl _ w, h⟩
      · rename_i hnull
        exact removeEntry_succeeds (Bool.eq_false_iff.mpr hnull) name h
    refine hremove.bind fun _ w' hw' => ?_
    split
    · rename_i hnull
      rw [Value.eq_null_of_isNull hnull]
      exact yields_pure hw'
    · rename_i hnull
      refine (addEntry_succeeds (Bool.eq_false_iff.mpr hnull) name hw'.2).imp (fun _ _ h => h) ?_
      rintro _ w'' ⟨hsteps, hentries⟩
      exact ⟨hw'.1.trans hsteps, hentries⟩

end Index

end TableStore
