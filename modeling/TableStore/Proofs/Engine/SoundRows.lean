import TableStore.Proofs.Engine.Reached
import TableStore.Proofs.Engine.Signature

/-!
# Rows That Can Be Read

Some of what is known of a stored row does not depend on its table at all: its
names are different, none of its values is NaN or nested, and every integer in
it has a text. That is enough for the row to be read back, to be put in an order
and to be shown.

It holds in every store that is reached, whatever the run has met with. A table
may take the name that ids are kept under for a column, and then little is
known of what its rows are called; but a row is still put together from named
members, and a member that is assigned keeps its name.

## Main definitions

* `Row.IsSound`: A row that can be read, ordered and shown.

## Theorems

* `isRegular_of_assignRow`: Assignments keep the names apart and the values regular.
* `Statement.writesWithin_sound`: Every row that is written is sound.
* `Reached.sound`: Every stored row is sound.
-/

namespace TableStore

open Access

variable {d : Description} {layout : KeyLayout} {table : String} {schema : TableSchema} {w : World}

/-- A row with different names whose values are scalars that have an order and a text. -/
structure Row.IsSound (row : Row) : Prop where
  names : (Members.names row).Nodup
  regular : ∀ member ∈ row, member.2.IsRegular
  texts : row.hasText = true

/-- Bytes that are read as a sound row. -/
def SoundData (_id data : Bytes) : Prop :=
  ∃ row, Row.ofBytes data = .ok row ∧ row.IsSound

theorem soundData_of_toBytes {row : Row} {id data : Bytes} (hnames : (Members.names row).Nodup)
    (hregular : ∀ member ∈ row, member.2.IsRegular) (hdata : row.toBytes = .ok data) :
    SoundData id data := by
  have hread := Row.ofBytes_toBytes hnames (fun m hm => (hregular m hm).scalar) hdata
  refine ⟨row, hread, hnames, hregular, ?_⟩
  rw [Row.toBytes] at hdata
  split at hdata
  · assumption
  · exact absurd hdata (by simp)

/-- Assignments keep the names apart and the values regular, whichever columns they assign. -/
theorem isRegular_of_assignRow {assignments : List Assignment}
    (hassignments : ∀ a ∈ assignments, a.value.IsDenoted) {old row row' : Row}
    (hold : ∀ member ∈ old, member.2.IsRegular) (hnames : (Members.names row).Nodup)
    (hregular : ∀ member ∈ row, member.2.IsRegular)
    (h : assignRow schema.stored old row assignments = .ok row') :
    (Members.names row').Nodup ∧ ∀ member ∈ row', member.2.IsRegular := by
  refine TableSchema.keeps_of_assignRow
    (P := fun row => (Members.names row).Nodup ∧ ∀ member ∈ row, member.2.IsRegular)
    hassignments hold ?_ ⟨hnames, hregular⟩ h
  rintro _ - column - - v - hv row ⟨hnames, hregular⟩
  refine ⟨Members.nodup_names_set hnames _ _, fun member hmember => ?_⟩
  rcases Members.mem_of_mem_set hmember with hset | hmem
  · rw [hset]
    exact hv
  · exact hregular member hmem

/-- Every row that a statement writes is sound, if those that it finds are. -/
theorem Statement.writesWithin_sound (hd : d.WellFormed) {statement : Statement}
    (hplain : statement.Plain) (ht : d.tables statement.table = some schema) :
    statement.WritesWithin layout schema (d.keeping layout statement.table SoundData) := by
  have hwell := hd.schema_wellFormed statement.table schema ht
  intro id row data hwrites hfits hdata other hother hkey
  cases hwrites with
  | insert hregular hbuilt hprimary hkeyed =>
    rcases hd.schema_bytes _ schema ht with ⟨bytes, hbytes⟩
    have hsigns := signs_of_buildRow hwell hbytes hregular hbuilt hprimary hkeyed
    exact soundData_of_toBytes hsigns.nodup hsigns.regular hdata
  | update hcheck hfinds hassign hfiled =>
    -- The row that is changed was read from the store, so it was sound before.
    rcases hfinds with ⟨slot, bytes, hslot, ⟨-, hmeets⟩, hread, -⟩
    rcases hmeets slot hslot rfl with ⟨old, hold, hsound⟩
    obtain rfl := Except.ok.inj (hold.symm.trans hread)
    rcases isRegular_of_assignRow hplain hsound.regular hsound.names hsound.regular hassign with
      ⟨hnames, hregular⟩
    exact soundData_of_toBytes hnames hregular hdata

/-- Every row of a store that is reached is sound. -/
theorem Reached.sound {allows : Tables → Except Fault QueryResult → Prop} {tables : Tables}
    {m : Memory} (h : Reached layout allows tables m) {c : Contents} (hm : m.entries = c.entries)
    (table : String) : c.EveryRow layout table SoundData := by
  induction h generalizing c with
  | start ascending free =>
    -- The key of a row is under the root, where there is nothing yet.
    intro id data hfits hget
    have hmem := Contents.mem_entries.mpr hget
    rw [← hm] at hmem
    exact absurd (Slot.carries_root _) (by rw [free _ hmem]; exact Bool.false_ne_true)
  | call h useIndexes sql ids notes allowed ih =>
    rcases h.described with ⟨d, before, -, hbefore, hd⟩
    rcases ((Engine.mk layout useIndexes).execute sql).run_contents hbefore ids notes with
      ⟨-, hshows⟩
    have hc : c = (((Engine.mk layout useIndexes).execute sql).on ⟨before, ids, notes⟩).2.store :=
      Contents.ext_get? fun key => congrArg (lookupEntry key) (hm.symm.trans hshows.entries)
    rw [hc, Engine.execute]
    rcases hread : Statement.ofText sql with fault | statement
    · exact ih hbefore
    · rw [lift_ok_bind]
      have hplain := Statement.plain_of_ofText hread
      refine Engine.executeStatement_everyRow hd hplain (ih hbefore) fun htable schema ht => ?_
      subst htable
      exact Statement.writesWithin_sound hd.wellFormed hplain ht

end TableStore
