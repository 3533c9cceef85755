import TableStore.Index
import TableStore.Proofs.Engine.Catalog
import TableStore.Proofs.Key.Families
import TableStore.Proofs.Key.IndexValue
import TableStore.Proofs.Store.Success

/-!
# Keys of Entries

An entry is stored under the bytes of a value and the bytes of a row's id. Such
a key exists unless one of the parts is refused, and the reasons for that are
few: null has no bytes, an integer may be beyond the digit limit, a part may be
too long for a key, and an id may be no text.

Whatever an index holds, moving its entries changes entries and nothing else, so
it keeps to every discipline under which entries may change.

## Main definitions

* `Discipline.ChangesEntries`: A discipline under which the entries of an index may change.

## Theorems

* `Index.entryKey_ok`: The key of an entry is that of a place.
* `Index.entryKey_error`: Why there is no key.
* `Index.obeys_moveStored`, `obeys_backfill`: Changes of entries.
-/

namespace TableStore

open Access

variable {d : Description} {layout : KeyLayout} {table index : String} {dis : Discipline}

/-- A discipline under which the entries of an index may change, and anything may fail. -/
structure Discipline.ChangesEntries (dis : Discipline) (layout : KeyLayout) (table index : String) :
    Prop where
  puts : ∀ {value id data}, (Slot.entry table index value id).Fits →
    dis.puts ((Slot.entry table index value id).key layout) data
  deletes : ∀ {value id}, (Slot.entry table index value id).Fits →
    dis.deletes ((Slot.entry table index value id).key layout)
  fails : ∀ fault, dis.fails fault

theorem Description.Serves.changesEntries (h : d.Serves layout table dis) {column : String}
    (hcovers : d.covers table index = some column) : dis.ChangesEntries layout table index where
  puts hfits := h.puts_entry hfits ⟨column, hcovers⟩
  deletes hfits := h.deletes_entry hfits
  fails := h.fails

/-- An outcome that a dialogue may end in, when it may fail in any way. -/
theorem Discipline.ChangesEntries.outcome (h : dis.ChangesEntries layout table index) {α : Type}
    {post : α → Prop} {r : Except Fault α} (hok : ∀ a, r = .ok a → post a) :
    (Access.lift r).Obeys dis post :=
  obeys_lift hok fun fault _ => h.fails fault

namespace Index

/-- The key of an entry is that of the bytes of the id. -/
theorem entryKey_eq {id : Value} {idBytes : Bytes} (hid : RowId.toKey id = .ok idBytes) (v : Value) :
    entryKey layout table index v id = layout.indexKey table index v idBytes := by
  simp only [entryKey, hid, ok_bind, KeyLayout.indexKey]

/-- The key of an entry is that of a place. -/
theorem entryKey_ok {v id : Value} {key : Bytes} (h : entryKey layout table index v id = .ok key) :
    ∃ value idBytes, Key.encodeIndexValue v = .ok value ∧ RowId.toKey id = .ok idBytes
      ∧ key = (Slot.entry table index value idBytes).key layout
      ∧ (Slot.entry table index value idBytes).Fits := by
  rcases exists_of_bind_eq_ok h with ⟨_, -, hrest⟩
  rcases exists_of_bind_eq_ok hrest with ⟨idBytes, hid, -⟩
  rw [entryKey_eq hid] at h
  rcases KeyLayout.indexKey_ok h with ⟨value, hvalue, hkey, hfits⟩
  exact ⟨value, idBytes, hvalue, hid, hkey, hfits⟩

theorem entryKey_fits {v id : Value} {value idBytes : Bytes}
    (hvalue : Key.encodeIndexValue v = .ok value) (hid : RowId.toKey id = .ok idBytes)
    (hfits : (Slot.entry table index value idBytes).Fits) :
    entryKey layout table index v id = .ok ((Slot.entry table index value idBytes).key layout) := by
  rw [entryKey_eq hid, KeyLayout.indexKey_encoded hvalue, Key.ofComponents_fit hfits]

/-- Why there is no key for an entry. -/
theorem entryKey_error {v id : Value} {fault : Fault}
    (h : entryKey layout table index v id = .error fault) :
    v.isNull = true ∨ fault.IsLimit ∨ RowId.toKey id = .error fault := by
  have htooLong : ∀ {components key}, Key.ofComponents components key = .error fault →
      fault.IsLimit := fun h => Or.inr (Key.ofComponents_error h)
  -- The steps are those to the key: the two names, the value, its length, the
  -- id, and its length.
  rcases bind_eq_error h with hvalue | ⟨start, -, h⟩
  · rcases bind_eq_error hvalue with hnames | ⟨start, -, hvalue⟩
    · exact Or.inr (Or.inl (htooLong hnames))
    · rcases bind_eq_error hvalue with hencode | ⟨value, -, hlength⟩
      · rcases Key.encodeIndexValue_error hencode with hnull | hlimit
        · exact Or.inl hnull
        · exact Or.inr (Or.inl (Or.inl hlimit))
      · exact Or.inr (Or.inl (htooLong hlength))
  · rcases bind_eq_error h with hid | ⟨idBytes, -, hlength⟩
    · exact Or.inr (Or.inr hid)
    · exact Or.inr (Or.inl (htooLong hlength))

theorem obeys_removeEntry (h : dis.ChangesEntries layout table index) (v id : Value) :
    (removeEntry layout table index v id).Obeys dis fun _ => True := by
  refine (h.outcome fun key hkey => hkey).bind fun key hkey => ?_
  rcases entryKey_ok hkey with ⟨value, idBytes, -, -, rfl, hfits⟩
  exact obeys_remove (h.deletes hfits)

theorem obeys_addEntry (h : dis.ChangesEntries layout table index) (v id : Value) :
    (addEntry layout table index v id).Obeys dis fun _ => True := by
  refine (h.outcome fun key hkey => hkey).bind fun key hkey => ?_
  rcases entryKey_ok hkey with ⟨value, idBytes, -, -, rfl, hfits⟩
  refine (h.outcome fun _ _ => trivial).bind fun data _ => ?_
  exact obeys_store (h.puts hfits)

/-- A move of unequal values is a removal and an addition. -/
theorem move_eq (old new id : Value) : move layout table index old new id =
    if old.equals new then pure ()
    else (if old.isNull then pure () else removeEntry layout table index old id) >>= fun _ =>
      if new.isNull then pure () else addEntry layout table index new id := by
  unfold move
  split
  · rfl
  · cases old.isNull <;> cases new.isNull <;> rfl

theorem obeys_move (h : dis.ChangesEntries layout table index) (old new id : Value) :
    (move layout table index old new id).Obeys dis fun _ => True := by
  rw [move_eq]
  split
  · exact obeys_pure trivial
  · have hremove : (if old.isNull then pure () else removeEntry layout table index old id).Obeys
        dis fun _ => True := by
      split
      · exact obeys_pure trivial
      · exact obeys_removeEntry h old id
    refine hremove.bind fun _ _ => ?_
    split
    · exact obeys_pure trivial
    · exact obeys_addEntry h new id

/-- The name of an index in the catalog may be anything, but only a text is used. -/
theorem obeys_moveStored {stored : StoredIndex} (hfails : ∀ fault, dis.fails fault)
    (h : ∀ name, stored.name.requireText = .ok name → dis.ChangesEntries layout table name)
    (old new id : Value) :
    (moveStored layout table stored old new id).Obeys dis fun _ => True := by
  unfold moveStored
  split
  · exact obeys_pure trivial
  · refine (obeys_lift (fun name hname => hname) fun fault _ => hfails fault).bind ?_
    exact fun name hname => obeys_move (h name hname) old new id

theorem obeys_backfill (h : dis.ChangesEntries layout table index) {column : String}
    (rows : List (Value × Row)) :
    (backfill layout table index column rows).Obeys dis fun _ => True := by
  induction rows with
  | nil => exact obeys_pure trivial
  | cons row rows ih =>
    rcases row with ⟨id, row⟩
    unfold backfill
    dsimp only
    split
    · exact ih
    · refine (obeys_addEntry h _ id).bind fun _ _ => ?_
      exact ih.bind fun _ _ => obeys_pure trivial

end Index

end TableStore
