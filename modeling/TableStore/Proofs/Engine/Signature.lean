import TableStore.Proofs.Engine.RowLaw

/-!
# Rows That Bear Their Id

A row's id is in two places: in the key that the row is stored under, and in the
row itself, where the full scan takes it from. If the table has a primary key,
the id is also the text of the row's key. All three agree as long as no
statement assigns the member that holds the id. Nothing forbids that where a
table declares a column of its name. The primary key is safe from assignments,
so the text stays what it was.

The names of columns are not restricted here, so a row need not have the shape
that other proofs rely on. What is known of it is its signature: the id that it
bears, and as much about its members as is needed to read it back.

## Main definitions

* `TableSchema.Signs`: A row that bears its id.
* `Contents.SignsRows`: A store in which all rows of a table do.
* `Statement.AssignsIds`: An update that assigns ids.

## Theorems

* `signs_of_buildRow`, `signs_of_assignRow`: Rows that are written bear their id.
* `Engine.executeStatement_signs`: What every other statement leaves.
-/

namespace TableStore

open Access

variable {d : Description} {layout : KeyLayout} {table : String} {schema : TableSchema}
  {id : String} {row : Row} {w : World}

/-- A row that bears its id, also as the text of its key, and that can be read
    back. Coercion leaves its columns alone, apart from one that takes the name
    that ids are kept under. -/
structure TableSchema.Signs (schema : TableSchema) (id : String) (row : Row) : Prop where
  filed : Members.get? row rowIdMember = some (.text id)
  keyed : ∀ key, schema.primaryKey = some key → (Row.value row key).isNull = false →
    (Row.value row key).toText = id
  typed : ∀ column ∈ schema.columns, column.name ≠ rowIdMember →
    (Row.value row column.name).coerce column.typeName column.name = .ok (Row.value row column.name)
  nodup : (Members.names row).Nodup
  regular : ∀ member ∈ row, member.2.IsRegular

theorem Members.nodup_names_set {α : Type} {members : Members α} (h : (names members).Nodup)
    (name : String) (a : α) : (names (set members name a)).Nodup := by
  by_cases hmem : name ∈ names members
  · rw [names_set_of_mem hmem]
    exact h
  · rw [set_of_not_mem hmem, names, List.map_append, List.nodup_append]
    refine ⟨h, List.nodup_singleton _, fun other hother single hsingle heq => ?_⟩
    obtain rfl : other = name := by rw [heq, List.mem_singleton.mp hsingle]
    exact hmem hother

theorem TableSchema.primaryKey_stored {key : String} :
    schema.stored.primaryKey = .string key ↔ schema.primaryKey = some key := by
  rw [stored]
  cases schema.primaryKey <;> simp

/-- The key of a row that is put together, if it has one. -/
theorem primaryValue?_toFields {members : Row} {found : Option Value}
    (h : primaryValue? schema.stored (Members.toFields members) = .ok found) {key : String}
    (hkey : schema.primaryKey = some key) (hnull : (Row.value members key).isNull = false) :
    found = some (Row.value members key) := by
  rw [primaryValue?_stored, hkey, Option.bind_some, Except.ok.injEq] at h
  rw [Row.value] at hnull ⊢
  rcases hget : Members.get? members key with _ | v
  · rw [hget] at hnull
    exact absurd hnull (by simp [Value.isNull])
  · rw [hget, Option.getD_some] at hnull
    rw [← h, hget, Option.getD_some, Option.filter_some, if_pos (by simp [hnull])]

/-- A row that an insertion puts together bears the id that it is filed under. -/
theorem signs_of_buildRow (hwell : schema.WellFormed) {data : Bytes}
    (hbytes : schema.toBytes = .ok data) {supplied built : Fields Value}
    (hsupplied : ∀ f ∈ supplied, f.2.IsRegular)
    (h : buildRow supplied [] schema.stored.columns = .ok built) {found : Option Value}
    (hfound : primaryValue? schema.stored built = .ok found)
    (hid : ∀ v, found = some v → v.toText = id) :
    schema.Signs id
      (Fields.toMembers (built.set (.string rowIdMember) (.text rowIdMember) (.text id))) := by
  rcases members_of_buildRow hwell hbytes hsupplied h with ⟨members, rfl, hall⟩
  have hnodup : (Members.names members).Nodup := by
    rw [names_of_holds hall]
    exact hwell.names_nodup
  rcases holds_of_mem hall with ⟨htyped, hregular⟩
  rw [Members.set_toFields, Members.toMembers_toFields]
  constructor
  · rw [Members.get?_set, if_pos rfl]
  · intro key hkey hnull
    rw [Row.value_set] at hnull ⊢
    by_cases hname : key = rowIdMember
    · -- The id takes the place of the key, and it is its own text.
      rw [if_pos hname]
      rfl
    · rw [if_neg hname] at hnull ⊢
      exact hid _ (primaryValue?_toFields hfound hkey hnull)
  · intro column hcolumn hname
    rcases htyped column hcolumn with ⟨v, hv, hcoerce⟩
    rw [Row.value_set, if_neg hname, Row.value, Members.get?_of_mem hnodup hv, Option.getD_some]
    exact hcoerce
  · exact Members.nodup_names_set hnodup _ _
  · intro member hmember
    rcases Members.mem_of_mem_set hmember with hv | hmem
    · rw [hv]
      exact ⟨trivial, rfl⟩
    · exact hregular member hmem

/-- A column of a row changed to a value that fits it, which is neither the id
    nor the key. -/
theorem TableSchema.Signs.set (hwell : schema.WellFormed) (h : schema.Signs id row)
    {column : Column} (hcolumn : column ∈ schema.columns) (hid : column.name ≠ rowIdMember)
    (hkey : schema.primaryKey ≠ some column.name) {v : Value}
    (htyped : v.coerce column.typeName column.name = .ok v) (hregular : v.IsRegular) :
    schema.Signs id (Members.set row column.name v) := by
  constructor
  · rw [Members.get?_set, if_neg hid.symm, h.filed]
  · intro key hprimary
    have hne : key ≠ column.name := by
      rintro rfl
      exact hkey hprimary
    rw [Row.value_set, if_neg hne]
    exact h.keyed key hprimary
  · intro other hother hother'
    rw [Row.value_set]
    by_cases hname : other.name = column.name
    · -- Columns with one name are one column.
      have hsame : other = column :=
        List.inj_on_of_nodup_map hwell.names_nodup hother hcolumn hname
      rw [if_pos hname, hsame]
      exact htyped
    · rw [if_neg hname]
      exact h.typed other hother hother'
  · exact Members.nodup_names_set h.nodup _ _
  · intro member hmember
    rcases Members.mem_of_mem_set hmember with hv | hmem
    · rw [hv]
      exact hregular
    · exact h.regular member hmem

/-- What passes the check before an update: assignments to declared columns, none
    of them the primary key. -/
theorem checkAssignments_ok {assignments : List Assignment}
    (h : checkAssignments schema.stored table assignments = .ok ()) :
    ∀ a ∈ assignments, a.column ∈ schema.names ∧ schema.primaryKey ≠ some a.column := by
  induction assignments with
  | nil => exact fun a ha => absurd ha (by simp)
  | cons first assignments ih =>
    rw [checkAssignments] at h
    split at h
    · exact absurd h (by simp)
    · rename_i hcolumn
      split at h
      · exact absurd h (by simp)
      · rename_i hprimary
        intro a ha
        rcases List.mem_cons.mp ha with rfl | hmem
        · refine ⟨TableSchema.hasColumn_stored.mp (by simpa using hcolumn), fun hkey => ?_⟩
          exact hprimary (TableSchema.primaryKey_stored.mpr hkey)
        · exact ih h a hmem

/-- Assignments keep the id of a row if they do not assign it. -/
theorem signs_of_assignRow (hwell : schema.WellFormed) {assignments : List Assignment}
    (hassignments : ∀ a ∈ assignments, a.value.IsDenoted)
    (hid : ∀ a ∈ assignments, a.column ≠ rowIdMember)
    (hkey : ∀ a ∈ assignments, schema.primaryKey ≠ some a.column) {old row' : Row}
    (hold : schema.Signs id old) (hrow : schema.Signs id row)
    (h : assignRow schema.stored old row assignments = .ok row') :
    schema.Signs id row' := by
  refine TableSchema.keeps_of_assignRow hassignments hold.regular ?_ hrow h
  intro a ha column hcolumn hname v htyped hregular row hrow
  refine hrow.set hwell hcolumn ?_ ?_ htyped hregular
  · rw [hname]
    exact hid a ha
  · rw [hname]
    exact hkey a ha

/-- Bytes that are read as a row which bears its id. -/
def TableSchema.Signed (schema : TableSchema) (id data : Bytes) : Prop :=
  ∃ name row, id = Text.encode name ∧ Row.ofBytes data = .ok row ∧ schema.Signs name row

theorem TableSchema.Signs.signed (h : schema.Signs id row) {data : Bytes}
    (hdata : row.toBytes = .ok data) : schema.Signed (Text.encode id) data := by
  have hscalar : ∀ member ∈ row, member.2.IsScalar :=
    fun member hmember => (h.regular member hmember).scalar
  exact ⟨id, row, rfl, Row.ofBytes_toBytes h.nodup hscalar hdata, h⟩

/-- A store in which all rows of a table bear their id. -/
def Contents.SignsRows (layout : KeyLayout) (table : String) (schema : TableSchema) (c : Contents) :
    Prop :=
  c.EveryRow layout table schema.Signed

/-- An update that assigns the member that ids are kept under. The check before an
    update refuses it unless the table has a column of that name which is not
    the primary key. -/
def Statement.AssignsIds (schema : TableSchema) : Statement → Prop
  | .update _ assignments _ => rowIdMember ∈ assignments.map Assignment.column
      ∧ rowIdMember ∈ schema.names ∧ schema.primaryKey ≠ some rowIdMember
  | _ => False

/-- Every row that a statement writes bears its id, unless ids are assigned. -/
theorem Statement.writesWithin_signing (hd : d.WellFormed) {statement : Statement}
    (hplain : statement.Plain) (ht : d.tables statement.table = some schema)
    (hassigns : ¬statement.AssignsIds schema) :
    statement.WritesWithin layout schema (d.keeping layout statement.table schema.Signed) := by
  have hwell := hd.schema_wellFormed statement.table schema ht
  intro id row data hwrites hfits hdata other hother hkey
  -- The id in the key is the one that the row is written under.
  have hsame := Slot.key_injective hfits hother hkey
  rw [Slot.row.injEq] at hsame
  rw [← hsame.2]
  cases hwrites with
  | insert hregular hbuilt hprimary hkeyed =>
    rcases hd.schema_bytes _ schema ht with ⟨bytes, hbytes⟩
    exact (signs_of_buildRow hwell hbytes hregular hbuilt hprimary hkeyed).signed hdata
  | @update table assignments conditions p _ _ hcheck hfinds hassign hfiled =>
    rcases hfinds with ⟨slot, bytes, hslot, ⟨-, hmeets⟩, hread, hid⟩
    rcases hmeets slot hslot rfl with ⟨name, old, rfl, hold, hsigns⟩
    obtain rfl : old = p.2 := Except.ok.inj (hold.symm.trans hread)
    -- Whether the id comes from the key or from the row, it is the same one.
    have hp : p.1 = .text name := by
      rcases hid with ⟨given, hgiven, heq⟩ | hkept
      · rw [hgiven, Text.encode_injective heq]
      · rw [Engine.idOf, hsigns.filed] at hkept
        exact (Except.ok.inj hkept).symm
    rw [hp] at hfiled
    rw [← Except.ok.inj hfiled]
    have hok := checkAssignments_ok hcheck
    refine (signs_of_assignRow hwell hplain (fun a ha hcolumn => hassigns ⟨?_, ?_, ?_⟩)
      (fun a ha => (hok a ha).2) hsigns hsigns hassign).signed hdata
    · exact hcolumn ▸ List.mem_map_of_mem ha
    · exact hcolumn ▸ (hok a ha).1
    · exact hcolumn ▸ (hok a ha).2

/-- A table that was there before a statement and is there afterwards has kept its
    schema. -/
theorem Tables.eq_of_after {tables : Tables} {statement : Statement}
    {r : Except Fault QueryResult} {declared : TableSchema} (h : tables table = some declared)
    (hafter : tables.after statement r table = some schema) : declared = schema := by
  rcases Tables.declared_of_after hafter with hbefore | ⟨hnone, -⟩
  · exact Option.some.inj (h.symm.trans hbefore)
  · exact absurd (h.symm.trans hnone) (by simp)

namespace Engine

variable {engine : Engine}

/-- What every statement leaves: rows that bear their id, unless it assigns ids. A
    table that is created has no rows. -/
theorem executeStatement_signs (hd : d.Describes engine.layout w.store) {statement : Statement}
    (hplain : statement.Plain)
    (hafter : d.tables.after statement ((engine.executeStatement statement).on w).1 table
      = some schema)
    (h : d.tables table = some schema → w.store.SignsRows engine.layout table schema
      ∧ (statement.table = table → ¬statement.AssignsIds schema)) :
    ((engine.executeStatement statement).on w).2.store.SignsRows engine.layout table schema := by
  have htables : ∀ declared, d.tables table = some declared → declared = schema :=
    fun _ ht => Tables.eq_of_after ht hafter
  have hsigned : w.store.SignsRows engine.layout table schema := by
    rcases ht : d.tables table with _ | declared
    · exact .of_undeclared hd ht
    · exact (h (htables declared ht ▸ ht)).1
  refine executeStatement_everyRow hd hplain hsigned fun htable declared ht => ?_
  obtain rfl := htables declared ht
  subst htable
  exact Statement.writesWithin_signing hd.wellFormed hplain ht ((h ht).2 rfl)

end Engine

end TableStore
