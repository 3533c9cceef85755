import TableStore.Proofs.Row
import TableStore.Schema

/-!
# Schemas Read Back

The catalog remembers nothing between statements, so what a statement declares
reaches later ones only through the store. A declared schema and a declared
index are read back as what the store is meant to hold of them.

What is read back is more than a declared schema can express, since its names
and types may be any JSON values. For a schema that was declared all of them
are texts, and the functions on stored schemas come down to the declared
columns.

## Main definitions

* `TableSchema.names`: The names of the declared columns.
* `TableSchema.WellFormed`: What every declared schema has.

## Theorems

* `TableSchema.eq_of_stored_eq`: Schemas are told apart by what is stored of them.
* `StoredSchema.ofBytes_toBytes`: A declared schema is read back.
* `StoredIndex.ofBytes_toBytes`: A declared index is read back.
* `IndexDefinition.toBytes_injective`: Indexes are told apart by their bytes.
* `TableSchema.column?_stored`, `hasColumn_stored`: Columns of a declared
  schema.
-/

namespace TableStore

open Json (ofBytes_write readableItems_iff)

namespace TableSchema

/-- The names of the declared columns in order. -/
def names (schema : TableSchema) : List String :=
  schema.columns.map Column.name

/-- What every declared schema has: columns with different names, defaults that
    literals denote, and a primary key, if any, among the columns. -/
structure WellFormed (schema : TableSchema) : Prop where
  names_nodup : schema.names.Nodup
  default_regular : ∀ column ∈ schema.columns, column.default.IsRegular
  key_mem : ∀ name, schema.primaryKey = some name → name ∈ schema.names

/-- What a schema with a stored form has. -/
theorem storable_of_toBytes {schema : TableSchema} {data : Bytes} (h : schema.toBytes = .ok data) :
    (∀ column ∈ schema.columns, column.isStorable = true)
      ∧ (∀ column ∈ schema.columns, column.default.hasText = true)
      ∧ data = Text.encodeChars (Json.write .spaced 0 schema.stored.toJson) := by
  rw [toBytes] at h
  split at h
  · exact absurd h (by simp)
  · rename_i hstorable
    split at h
    · exact absurd h (by simp)
    · rename_i htext
      rw [Bool.not_eq_true', Bool.not_eq_false] at hstorable htext
      exact ⟨List.all_eq_true.mp hstorable, List.all_eq_true.mp htext, (Except.ok.inj h).symm⟩

end TableSchema

theorem Column.readable_toJson {column : Column} (hscalar : column.default.IsScalar)
    (htext : column.default.hasText = true) : column.stored.toJson.Readable := by
  refine ⟨by simp [Members.names], trivial, trivial, trivial, trivial, ?_, trivial⟩
  exact Value.readable_toJson hscalar htext

theorem Column.ofJson_toJson (column : StoredColumn) :
    StoredColumn.ofJson column.toJson = .ok column := by
  simp [StoredColumn.ofJson, StoredColumn.toJson, requireObject, requireMember, Members.get?]

/-- A default other than bytes is read back as the value that it is. -/
theorem Column.ofPlain_default {column : Column} (hscalar : column.default.IsScalar)
    (hstorable : column.isStorable = true) :
    Value.ofPlain column.stored.default = column.default := by
  refine Value.ofPlain_toJson hscalar fun b hb => ?_
  rw [isStorable, hb] at hstorable
  exact absurd hstorable (by simp)

/-- A default that has a place in a stored schema. -/
def Column.DefaultKept (column : Column) : Prop :=
  column.default.IsScalar ∧ column.isStorable = true

/-- Columns are told apart by what the store holds of them. -/
theorem Column.eq_of_stored_eq {a b : Column} (ha : a.DefaultKept) (hb : b.DefaultKept)
    (h : a.stored = b.stored) : a = b := by
  have hdefault : a.default = b.default := by
    rw [← ofPlain_default ha.1 ha.2, ← ofPlain_default hb.1 hb.2, h]
  rcases a with ⟨name, typeName, nullable, primaryKey, default⟩
  rcases b with ⟨name', typeName', nullable', primaryKey', default'⟩
  simp only [stored, StoredColumn.mk.injEq, Json.string.injEq, Json.bool.injEq] at h
  rw [mk.injEq]
  exact ⟨h.1, h.2.1, h.2.2.1, h.2.2.2.1, hdefault⟩

theorem Column.eq_of_map_stored_eq {a b : List Column} (ha : ∀ column ∈ a, column.DefaultKept)
    (hb : ∀ column ∈ b, column.DefaultKept) (h : a.map stored = b.map stored) : a = b := by
  induction a generalizing b with
  | nil => exact (List.map_eq_nil_iff.mp h.symm).symm
  | cons column a ih =>
    cases b with
    | nil => exact absurd h (by simp)
    | cons other b =>
      rw [List.map_cons, List.map_cons, List.cons.injEq] at h
      rw [List.forall_mem_cons] at ha hb
      rw [eq_of_stored_eq ha.1 hb.1 h.1, ih ha.2 hb.2 h.2]

/-- Schemas are told apart by what the store holds of them. -/
theorem TableSchema.eq_of_stored_eq {a b : TableSchema}
    (ha : ∀ column ∈ a.columns, column.DefaultKept) (hb : ∀ column ∈ b.columns, column.DefaultKept)
    (h : a.stored = b.stored) : a = b := by
  rcases a with ⟨name, columns, primaryKey⟩
  rcases b with ⟨name', columns', primaryKey'⟩
  simp only [stored, StoredSchema.mk.injEq, Json.string.injEq] at h
  rcases h with ⟨hname, hcolumns, hkey⟩
  rw [mk.injEq]
  refine ⟨hname, Column.eq_of_map_stored_eq ha hb hcolumns, ?_⟩
  cases primaryKey <;> cases primaryKey' <;> simp_all

/-- A schema is read back if literals denote its defaults. -/
theorem StoredSchema.ofBytes_toBytes {schema : TableSchema} {data : Bytes}
    (hdefaults : ∀ column ∈ schema.columns, column.default.IsRegular)
    (h : schema.toBytes = .ok data) : StoredSchema.ofBytes data = .ok schema.stored := by
  rcases TableSchema.storable_of_toBytes h with ⟨-, htext, rfl⟩
  -- What is written is read back as the same members, from which the columns are read one by one.
  have hcolumns : Json.ReadableItems (schema.stored.columns.map StoredColumn.toJson) := by
    refine readableItems_iff.mpr fun item hitem => ?_
    rw [TableSchema.stored, List.map_map] at hitem
    rcases List.mem_map.mp hitem with ⟨column, hcolumn, rfl⟩
    exact Column.readable_toJson (hdefaults column hcolumn).scalar (htext column hcolumn)
  have hkey : schema.stored.primaryKey.Readable := by
    simp only [TableSchema.stored]
    cases schema.primaryKey <;> trivial
  have hreadable : schema.stored.toJson.Readable :=
    ⟨by simp [Members.names], trivial, hcolumns, hkey, trivial⟩
  have hitems : (schema.stored.columns.map StoredColumn.toJson).mapM StoredColumn.ofJson
      = .ok schema.stored.columns :=
    mapM_map_eq_ok fun column _ => Column.ofJson_toJson column
  rw [StoredSchema.ofBytes, ofBytes_write JsonStyle.spaced_plain hreadable, ok_bind]
  simp [StoredSchema.ofJson, StoredSchema.toJson, requireObject, requireMember, Members.get?,
    requireArray, hitems]

/-- A declared index is read back. -/
theorem StoredIndex.ofBytes_toBytes (index : IndexDefinition) :
    StoredIndex.ofBytes index.toBytes = .ok index.stored := by
  have hreadable : index.stored.toJson.Readable :=
    ⟨by simp [Members.names], trivial, trivial, trivial, trivial⟩
  rw [StoredIndex.ofBytes, IndexDefinition.toBytes, ofBytes_write JsonStyle.spaced_plain hreadable,
    ok_bind]
  simp [StoredIndex.ofJson, StoredIndex.toJson, requireObject, requireMember, Members.get?]

theorem IndexDefinition.stored_injective {a b : IndexDefinition} (h : a.stored = b.stored) :
    a = b := by
  rcases a with ⟨n, t, c⟩
  rcases b with ⟨n', t', c'⟩
  simp only [IndexDefinition.stored, StoredIndex.mk.injEq, Json.string.injEq] at h
  rw [h.1, h.2.1, h.2.2]

/-- Indexes are told apart by their bytes. -/
theorem IndexDefinition.toBytes_injective {a b : IndexDefinition} (h : a.toBytes = b.toBytes) :
    a = b := by
  have hread := StoredIndex.ofBytes_toBytes a
  rw [h, StoredIndex.ofBytes_toBytes] at hread
  exact (stored_injective (Except.ok.inj hread)).symm

namespace TableSchema

theorem columnNames_stored (schema : TableSchema) :
    schema.stored.columnNames = schema.names.map Json.string := by
  simp only [StoredSchema.columnNames, stored, names, List.map_map]
  rfl

theorem column?_stored (schema : TableSchema) (name : String) :
    schema.stored.column? name
      = (schema.columns.find? fun column => column.name = name).map Column.stored := by
  simp only [StoredSchema.column?, stored, List.find?_map]
  congr 1
  refine congrArg (List.find? · schema.columns) (funext fun column => ?_)
  simp [Column.stored]

theorem hasColumn_stored {schema : TableSchema} {name : String} :
    schema.stored.hasColumn name = true ↔ name ∈ schema.names := by
  rw [StoredSchema.hasColumn, column?_stored, Option.isSome_map, List.find?_isSome, names,
    List.mem_map]
  simp

theorem exists_of_column?_stored {schema : TableSchema} {name : String} {column : StoredColumn}
    (h : schema.stored.column? name = some column) :
    ∃ declared ∈ schema.columns, declared.name = name ∧ column = declared.stored := by
  rw [column?_stored] at h
  rcases Option.map_eq_some_iff.mp h with ⟨declared, hfind, rfl⟩
  exact ⟨declared, List.mem_of_find?_eq_some hfind, by simpa using List.find?_some hfind, rfl⟩

/-- A declared column is found by its name. -/
theorem column?_of_mem {schema : TableSchema} (hwell : schema.WellFormed) {column : Column}
    (hcolumn : column ∈ schema.columns) : schema.stored.column? column.name = some column.stored := by
  have hname : schema.stored.hasColumn column.name = true :=
    hasColumn_stored.mpr (List.mem_map.mpr ⟨column, hcolumn, rfl⟩)
  rcases Option.isSome_iff_exists.mp hname with ⟨found, hfound⟩
  rcases exists_of_column?_stored hfound with ⟨declared, hdeclared, hsame, rfl⟩
  rw [hfound, List.inj_on_of_nodup_map hwell.names_nodup hdeclared hcolumn hsame]

/-- The columns that an insertion supplies values for: the named ones, and all of
    them if none are named. -/
theorem columnNames_getD (schema : TableSchema) (columns : Option (List String)) :
    (columns.map fun names => names.map Json.string).getD schema.stored.columnNames
      = (columns.getD schema.names).map Json.string := by
  cases columns with
  | none => exact columnNames_stored schema
  | some names => rfl

theorem WellFormed.nodup_getD {schema : TableSchema} (hwell : schema.WellFormed)
    {columns : Option (List String)} (hnodup : ∀ names, columns = some names → names.Nodup) :
    (columns.getD schema.names).Nodup := by
  cases columns with
  | none => exact hwell.names_nodup
  | some names => exact hnodup names rfl

end TableSchema

theorem Column.coerce_stored (column : Column) (v : Value) :
    column.stored.coerce v = v.coerce column.typeName column.name :=
  rfl

theorem Column.tryCoerce_stored (column : Column) (v : Value) :
    column.stored.tryCoerce v = v.tryCoerce column.typeName :=
  rfl

end TableStore
