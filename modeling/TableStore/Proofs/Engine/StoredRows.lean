import TableStore.Proofs.Engine.Reached
import TableStore.Proofs.Engine.Rows

/-!
# Schemas and Rows in a Store

Whatever texts have been executed, a table has the schema that it was created
with, byte for byte, until it is dropped. Which one that is follows from the
texts and their outcomes, without looking at the store. The rows of the table
have the members that the schema declares, in its order, and their id last, and
each member has a value that its column accepts as it is.

Nothing is asked of the runs here: they may hit limits, and other tables may
take the name of the ids for a column.

## Main definitions

* `TableSchema.Types`: A stored row that is well formed and well typed.
* `Memory.Keeps`: A table with its schema and its rows.

## Theorems

* `Reached.keeps`: Schemas are kept, and rows are well typed.
-/

namespace TableStore

variable {layout : KeyLayout} {allows : Tables → Except Fault QueryResult → Prop} {tables : Tables}
  {m : Memory} {d : Description} {c : Contents} {table : String} {schema : TableSchema}

/-- Bytes that are read as a row with the members that a schema declares and an
    id after them, where each member has a value that coercion leaves alone and
    that is of the type of its column, if it is not null and the type is
    known. -/
def TableSchema.Types (schema : TableSchema) (id : String) (data : Bytes) : Prop :=
  ∃ row, Row.ofBytes data = .ok row ∧ Members.names row = schema.names ++ [rowIdMember]
    ∧ Members.get? row rowIdMember = some (.text id)
    ∧ ∀ column ∈ schema.columns, ∃ v, Members.get? row column.name = some v
      ∧ v.coerce column.typeName column.name = .ok v
      ∧ ∀ type, ColumnType.ofName? column.typeName = some type → type.Holds v

/-- A store that has the schema of a table, and only well typed rows of it. A
    table that is not declared has no schema. -/
structure Memory.Keeps (layout : KeyLayout) (m : Memory) (table : String)
    (declared : Option TableSchema) : Prop where
  schema_iff : ∀ key data, layout.schemaKey? table = .ok key →
    (lookupEntry key m.entries = some data
      ↔ ∃ schema, declared = some schema ∧ schema.toBytes = .ok data)
  schema_read : ∀ schema, declared = some schema → ∃ key data,
    layout.schemaKey? table = .ok key ∧ schema.toBytes = .ok data
      ∧ StoredSchema.ofBytes data = .ok schema.stored
  rows_typed : ∀ schema, declared = some schema → schema.KeepsIds → ∀ key data,
    Bytes.carries (layout.rowPrefix table) key = true → lookupEntry key m.entries = some data →
    ∃ id, layout.rowKey? table (Text.encode id) = .ok key ∧ schema.Types id data

/-- A row that is accepted has a value in each column. -/
theorem TableSchema.Accepts.types {id : String} {row : Row} {data : Bytes}
    (h : schema.Accepts id row) (hread : Row.ofBytes data = .ok row) : schema.Types id data := by
  refine ⟨row, hread, h.names, h.filed, fun column hcolumn => ?_⟩
  have hmem : column.name ∈ Members.names row := by
    rw [h.names]
    exact List.mem_append_left _ (List.mem_map_of_mem hcolumn)
  rcases Members.exists_of_mem_names hmem with ⟨v, hv⟩
  have hvalue : Row.value row column.name = v := by
    rw [Row.value, hv]
    rfl
  have htyped := h.typed column hcolumn
  rw [hvalue] at htyped
  exact ⟨v, hv, htyped, fun type htype => Value.holds_of_coerce htype htyped⟩

theorem Description.Describes.memory_keeps (hd : d.Describes layout c) (hm : m.entries = c.entries)
    (table : String) : m.Keeps layout table (d.tables table) where
  schema_iff key data hkey := by
    rcases KeyLayout.schemaKey?_ok hkey with ⟨rfl, hfits⟩
    rw [hm]
    constructor
    · exact fun hget => hd.allows hfits hget
    · rintro ⟨schema, ht, hbytes⟩
      exact hd.schema_stored table schema data ht hbytes
  schema_read schema ht := by
    rcases hd.wellFormed.schema_bytes table schema ht with ⟨data, hbytes⟩
    have hwell := hd.wellFormed.schema_wellFormed table schema ht
    exact ⟨_, data, KeyLayout.schemaKey?_fits (hd.wellFormed.schema_slot_fits ht), hbytes,
      StoredSchema.ofBytes_toBytes hwell.default_regular hbytes⟩
  rows_typed schema ht hids key data hcarries hget := by
    rw [hm] at hget
    have hname := hd.wellFormed.schema_fits table schema ht
    rcases hd.binds key data hget (KeyLayout.carries_root_of_rowPrefix hcarries) with
      ⟨slot, hfits, rfl, hallows⟩
    rcases (Slot.carries_rowPrefix hfits hname).mp hcarries with ⟨id, rfl⟩
    rcases hallows.read hd.wellFormed ht hids with ⟨name, row, rfl, haccepts, hread, -⟩
    exact ⟨name, KeyLayout.rowKey?_fits hfits, haccepts.types hread⟩

/-- Schemas are kept, and rows are well typed. -/
theorem Reached.keeps (h : Reached layout allows tables m) (table : String) :
    m.Keeps layout table (tables table) := by
  rcases h.described with ⟨d, c, rfl, hm, hd⟩
  exact hd.memory_keeps hm table

/-- A table with one row. -/
theorem keeps_indexedTable :
    (freshRun indexedTable).2.store.Keeps defaultLayout "t"
        (Tables.afterTexts (fun _ => none) indexedTable (freshRun indexedTable).1 "t")
      ∧ (Tables.afterTexts (fun _ => none) indexedTable (freshRun indexedTable).1 "t").map
        TableSchema.names = some ["a"] :=
  ⟨reached_indexedTable.keeps "t", by decide +kernel⟩

end TableStore
