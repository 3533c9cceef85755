import TableStore.Proofs.Engine.History
import TableStore.Proofs.Engine.IndexAgreement
import TableStore.Proofs.Value.Spelling

/-!
# Identity of Rows

A row is found by its id, and a scan finds the id in the row. So what a scan has
found is written back to where it came from only if the row bears the id that it
is stored under. If the table has a primary key, the id is also the text of the
row's key, and this is what keeps two rows from having the same one.

Neither holds without reserve. The check before an update protects the primary
key, but not a column that takes the name of the ids, so that ids can be
assigned. And the text of a key is not the key: a zero with a sign and one
without are equal, and their texts are not. The same goes for a number that is
an integer in one row and a float in the other, where the type of the column is
not one of those that are checked.

## Main definitions

* `Memory.row?`: The row that is stored under an id.

## Theorems

* `Executed.rows_bear_ids`: Rows bear the ids that they are stored under.
* `Executed.equal_keys_spelled_apart`: When two rows have equal keys.
-/

namespace TableStore

variable {layout : KeyLayout} {history : History} {m : Memory} {table : String}
  {schema : TableSchema}

/-- The row that is stored under an id, if there is one. -/
def Memory.row? (layout : KeyLayout) (m : Memory) (table id : String) : Option Row := do
  let key ← (layout.rowKey? table (Text.encode id)).toOption
  let data ← lookupEntry key m.entries
  (Row.ofBytes data).toOption

theorem Memory.holdsRow_iff {id : String} {row : Row} :
    m.HoldsRow layout table id row ↔ m.row? layout table id = some row := by
  have htoOption : ∀ {α : Type} {r : Except Fault α} {a : α}, r.toOption = some a ↔ r = .ok a := by
    intro α r a
    cases r <;> simp [Except.toOption]
  rw [row?]
  constructor
  · rintro ⟨key, data, hkey, hget, hread⟩
    simp only [hkey, hget, hread, Except.toOption, Option.bind_eq_bind, Option.bind_some]
  · intro h
    rcases Option.bind_eq_some_iff.mp h with ⟨key, hkey, h⟩
    rcases Option.bind_eq_some_iff.mp h with ⟨data, hget, hread⟩
    exact ⟨key, data, htoOption.mp hkey, hget, htoOption.mp hread⟩

instance (id : String) (row : Row) : Decidable (m.HoldsRow layout table id row) :=
  decidable_of_iff _ Memory.holdsRow_iff.symm

namespace Executed

/-- What is stored as a row belongs to a declared table and bears its id, if no
    text has assigned ids of the table. -/
theorem signed (h : Executed layout history m) (hkeeps : history.keepsIds table = true)
    {id key data : Bytes} (hkey : layout.rowKey? table id = .ok key)
    (hget : lookupEntry key m.entries = some data) :
    ∃ schema, history.tables table = some schema ∧ schema.Signed id data := by
  rcases h.reached.described with ⟨d, c, htables, hm, hd⟩
  rcases KeyLayout.rowKey?_ok hkey with ⟨rfl, hfits⟩
  rw [hm] at hget
  rcases hd.allows hfits hget with ⟨schema, ht, -⟩
  rw [htables] at ht
  exact ⟨schema, ht, h.signs ht hkeeps hm id data hfits hget⟩

/-- Rows bear the ids that they are stored under, and these are the texts of
    their keys, if no text has assigned ids of the table. -/
theorem rows_bear_ids (h : Executed layout history m) (hkeeps : history.keepsIds table = true)
    {id key data : Bytes} (hkey : layout.rowKey? table id = .ok key)
    (hget : lookupEntry key m.entries = some data) :
    ∃ schema name row, history.tables table = some schema ∧ id = Text.encode name
      ∧ Row.ofBytes data = .ok row ∧ Members.get? row rowIdMember = some (.text name)
      ∧ ∀ p, schema.primaryKey = some p → (Row.value row p).isNull = false →
        (Row.value row p).toText = name := by
  rcases h.signed hkeeps hkey hget with ⟨schema, ht, name, row, hid, hread, hsigns⟩
  exact ⟨schema, name, row, ht, hid, hread, hsigns.filed, hsigns.keyed⟩

end Executed

/-- Two zeros as keys. -/
def zeroKeys : List (Option String) :=
  [some "CREATE TABLE t (p FLOAT PRIMARY KEY)", some "INSERT INTO t VALUES (0.0)",
    some "INSERT INTO t VALUES (-0.0)"]

theorem holdsRow_zeroKeys : (freshHistory zeroKeys).keepsIds "t" = true
    ∧ (freshHistory zeroKeys).tables "t"
      = some ⟨"t", [⟨"p", "FLOAT", false, true, .null⟩], some "p"⟩
    ∧ (freshRun zeroKeys).2.store.HoldsRow defaultLayout "t" "0.0"
      [("p", .float (.finite false 0)), ("_id", .text "0.0")]
    ∧ (freshRun zeroKeys).2.store.HoldsRow defaultLayout "t" "-0.0"
      [("p", .float (.finite true 0)), ("_id", .text "-0.0")] := by
  decide +kernel

/-- The row with the negative zero. -/
theorem rows_bear_ids_zeroKeys : ∃ schema row,
    (freshHistory zeroKeys).tables "t" = some schema ∧ schema.primaryKey = some "p"
      ∧ (freshRun zeroKeys).2.store.HoldsRow defaultLayout "t" "-0.0" row
      ∧ Members.get? row rowIdMember = some (.text "-0.0")
      ∧ (Row.value row "p").toText = "-0.0" := by
  rcases holdsRow_zeroKeys with ⟨hkeeps, htable, -, key, data, hkey, hget, hread⟩
  rcases (executed_freshRun zeroKeys).rows_bear_ids hkeeps hkey hget with
    ⟨schema, name, row, ht, hid, hread', hfiled, hkeyed⟩
  obtain rfl : "-0.0" = name := Text.encode_injective hid
  obtain rfl := Except.ok.inj (hread.symm.trans hread')
  obtain rfl := Option.some.inj (htable.symm.trans ht)
  exact ⟨_, _, htable, rfl, ⟨key, data, hkey, hget, hread⟩, hfiled, hkeyed "p" rfl rfl⟩

/-- A column takes the name that ids are kept under, and is assigned. -/
def assignedIds : List (Option String) :=
  [some "CREATE TABLE t (_id TEXT, a INTEGER)", some "INSERT INTO t (a) VALUES (7)",
    some "UPDATE t SET _id = 'x' WHERE a = 7"]

/-- The row is still stored under its old id. -/
theorem ids_differ_assigned :
    Executed defaultLayout (freshHistory assignedIds) (freshRun assignedIds).2.store
      ∧ ∃ row, (freshRun assignedIds).2.store.HoldsRow defaultLayout "t" "1" row
        ∧ Members.get? row rowIdMember ≠ some (.text "1") :=
  ⟨executed_freshRun _, [("_id", .text "x"), ("a", .int 7)], by decide +kernel, by decide⟩

namespace Executed

/-- A row that is held and bears its id. -/
theorem signs_of_holdsRow (h : Executed layout history m) (hkeeps : history.keepsIds table = true)
    (ht : history.tables table = some schema) {id : String} {row : Row}
    (hrow : m.HoldsRow layout table id row) : schema.Signs id row := by
  rcases hrow with ⟨key, data, hkey, hget, hread⟩
  rcases h.signed hkeeps hkey hget with ⟨declared, hdeclared, name, other, hid, hother, hsigns⟩
  obtain rfl : declared = schema := Option.some.inj (hdeclared.symm.trans ht)
  obtain rfl : other = row := Except.ok.inj (hother.symm.trans hread)
  obtain rfl : id = name := Text.encode_injective hid
  exact hsigns

/-- Two rows have equal keys only if these are numbers that are written
    differently. In a column of a checked type they are the two zeros of a column
    of floats. -/
theorem equal_keys_spelled_apart (h : Executed layout history m)
    (hkeeps : history.keepsIds table = true) (ht : history.tables table = some schema) {p : String}
    (hp : schema.primaryKey = some p) {id id' : String} {row row' : Row}
    (hrow : m.HoldsRow layout table id row) (hrow' : m.HoldsRow layout table id' row') (hids : id ≠ id')
    (hnull : (Row.value row p).isNull = false) (hnull' : (Row.value row' p).isNull = false)
    (hequal : (Row.value row p).equals (Row.value row' p) = true) :
    (Row.value row p).SpelledApart (Row.value row' p) ∧ ∃ column ∈ schema.columns, column.name = p
      ∧ ∀ type, ColumnType.ofName? column.typeName = some type → type = .float
        ∧ ∃ negative, Row.value row p = .float (.finite negative 0)
          ∧ Row.value row' p = .float (.finite (!negative) 0) := by
  have hsigns := h.signs_of_holdsRow hkeeps ht hrow
  have hsigns' := h.signs_of_holdsRow hkeeps ht hrow'
  rcases Value.eq_or_spelledApart hequal with hsame | happart
  · -- Rows with one key would have one id.
    refine absurd ?_ hids
    rw [← hsigns.keyed p hp hnull, ← hsigns'.keyed p hp hnull', hsame]
  · refine ⟨happart, ?_⟩
    rcases h.reached.described with ⟨d, c, htables, -, hd⟩
    rw [← htables] at ht
    have hwell := hd.wellFormed.schema_wellFormed table schema ht
    rcases List.mem_map.mp (hwell.key_mem p hp) with ⟨column, hcolumn, rfl⟩
    -- The member that ids are kept under holds texts, so it is not the key.
    have hname : column.name ≠ rowIdMember := by
      intro hname
      rw [hname, Row.value, hsigns.filed] at happart
      cases happart
    refine ⟨column, hcolumn, rfl, fun type htype => ?_⟩
    exact happart.zeros_of_holds (Value.holds_of_coerce htype (hsigns.typed column hcolumn hname))
      (Value.holds_of_coerce htype (hsigns'.typed column hcolumn hname))

end Executed

/-- The two zeros are written differently. -/
theorem spelled_apart_zeroKeys : ∃ row row',
    (freshRun zeroKeys).2.store.HoldsRow defaultLayout "t" "0.0" row
      ∧ (freshRun zeroKeys).2.store.HoldsRow defaultLayout "t" "-0.0" row'
      ∧ (Row.value row "p").SpelledApart (Row.value row' "p") := by
  rcases holdsRow_zeroKeys with ⟨hkeeps, htable, hrow, hrow'⟩
  have hspelled := (executed_freshRun zeroKeys).equal_keys_spelled_apart hkeeps htable rfl hrow
    hrow' (by decide) rfl rfl (by decide +kernel)
  exact ⟨_, _, hrow, hrow', hspelled.1⟩

/-- Two rows with equal keys. -/
theorem equal_keys_zeroKeys :
    Executed defaultLayout (freshHistory zeroKeys) (freshRun zeroKeys).2.store
      ∧ ∃ schema row row', (freshHistory zeroKeys).tables "t" = some schema
        ∧ schema.primaryKey = some "p"
        ∧ (freshRun zeroKeys).2.store.HoldsRow defaultLayout "t" "0.0" row
        ∧ (freshRun zeroKeys).2.store.HoldsRow defaultLayout "t" "-0.0" row'
        ∧ (Row.value row "p").equals (Row.value row' "p") = true := by
  rcases holdsRow_zeroKeys with ⟨-, htable, hrow, hrow'⟩
  exact ⟨executed_freshRun _, _, _, _, htable, rfl, hrow, hrow', by decide +kernel⟩

end TableStore
