import TableStore.Proofs.Row
import TableStore.Result.Document

/-!
# What a Document of Results Tells

The text of rows as JSON is read back as one object, whichever of the two
layouts it is in. The layouts have little in common as texts: one has no blank
at all, and the other puts every item on a line of its own, except that an
array or an object without items is closed at once. What they share is that
they add nothing but blanks, and `Json.ofChars_write` asks for no more.

The number of rows is an integer of the object like any other, and so it has to
be within the digit limit too. No list that fits into a memory is so long.

It remains to say what the object is. Its rows are related to the given ones
value by value, and by `Value.ShownAs` rather than by the function that writes
them, so that the only value which is shown as another one stands out: bytes
are shown as their text in base 64.

## Main definitions

* `Value.ShownAs`: What stands in a document for a value.
* `Row.ShownAs`: What stands in a document for a row.
* `Row.asked`: The members of a row that are asked for.
* `Row.IsRecord`: A row that has a document.

## Theorems

* `selectFields_eq`: The rows of a document have what is asked for.
* `readable_resultDocument`: A document can be read back.
* `renderDocument_reads`: Both texts of rows are read back as one document.
-/

namespace TableStore

theorem JsonStyle.compact_plain : JsonStyle.compact.Plain where
  separator := ⟨[], rfl, List.forall_mem_nil _⟩
  colon := ⟨[], rfl, List.forall_mem_nil _⟩

theorem JsonStyle.indented_plain : JsonStyle.indented.Plain where
  separator := ⟨[], rfl, List.forall_mem_nil _⟩
  colon := ⟨[' '], rfl, by intro c hc; rw [List.mem_singleton.mp hc]; rfl⟩

/-- What stands in a document for a value: the value itself, and for bytes their text in
    base 64. -/
inductive Value.ShownAs : Value → Json → Prop
  | null : ShownAs .null .null
  | bool (b : Bool) : ShownAs (.bool b) (.bool b)
  | int (n : Int) : ShownAs (.int n) (.int n)
  | float (d : Double) : ShownAs (.float d) (.float d)
  | text (s : String) : ShownAs (.text s) (.string s)
  | bytes (b : Bytes) : ShownAs (.bytes b) (.string (String.ofList (Text.toBase64 b)))

theorem Value.shownAs_plainJson {v : Value} (h : v.IsScalar) : v.ShownAs (plainJson v) := by
  cases v with
  | null => exact .null
  | bool b => exact .bool b
  | int n => exact .int n
  | float d => exact .float d
  | text s => exact .text s
  | bytes b => exact .bytes b
  | array items => exact absurd h id
  | object members => exact absurd h id

theorem Value.readable_plainJson {v : Value} (h : v.IsScalar) (htext : v.hasText = true) :
    (plainJson v).Readable := by
  cases v with
  | bytes b => trivial
  | _ => exact readable_toJson h htext

namespace Row

/-- What stands in a document for a row: an object with the members of the row in their order and
    no others. -/
def ShownAs (row : Row) (item : Json) : Prop :=
  ∃ members, item = .object members
    ∧ List.Forall₂ (fun member shown => shown.1 = member.1 ∧ member.2.ShownAs shown.2) row members

/-- The members of a row that are asked for: the given fields in their order, and all members if
    no fields are given. -/
def asked (fields : Option (List String)) (row : Row) : Row :=
  match fields with
  | none => row
  | some names => names.map fun name => (name, value row name)

/-- A row that has a document: its names are different, and its values are scalars that have a
    text. -/
structure IsRecord (row : Row) : Prop where
  names : (Members.names row).Nodup
  scalar : ∀ member ∈ row, member.2.IsScalar
  texts : ∀ member ∈ row, member.2.hasText = true

variable {row : Row}

theorem IsRecord.value (h : row.IsRecord) (name : String) :
    (value row name).IsScalar ∧ (value row name).hasText = true := by
  rw [Row.value]
  rcases hget : Members.get? row name with _ | v
  · exact ⟨trivial, rfl⟩
  · have hmem := Members.mem_of_get? hget
    exact ⟨h.scalar _ hmem, h.texts _ hmem⟩

theorem names_asked (names : List String) (row : Row) :
    Members.names (asked (some names) row) = names := by
  rw [Members.names, asked, List.map_map]
  exact List.map_id names

/-- What is asked for of a row is again a row that has a document. -/
theorem IsRecord.asked (h : row.IsRecord) {fields : Option (List String)}
    (hfields : ∀ names ∈ fields, names.Nodup) : (asked fields row).IsRecord := by
  rcases fields with _ | names
  · exact h
  · refine ⟨?_, ?_, ?_⟩
    · rw [names_asked]
      exact hfields names rfl
    · intro member hmember
      rcases List.mem_map.mp hmember with ⟨name, -, rfl⟩
      exact (h.value name).1
    · intro member hmember
      rcases List.mem_map.mp hmember with ⟨name, -, rfl⟩
      exact (h.value name).2

theorem IsRecord.shownAs (h : row.IsRecord) : row.ShownAs (rowDocument row) := by
  refine ⟨_, rfl, ?_⟩
  rw [List.forall₂_map_right_iff, List.forall₂_same]
  exact fun member hmember => ⟨rfl, Value.shownAs_plainJson (h.scalar member hmember)⟩

theorem IsRecord.readable (h : row.IsRecord) : (rowDocument row).Readable := by
  refine ⟨?_, Json.readableMembers_iff.mpr fun member hmember => ?_⟩
  · rw [Members.names, List.map_map]
    exact h.names
  · rcases List.mem_map.mp hmember with ⟨m, hm, rfl⟩
    exact Value.readable_plainJson (h.scalar m hm) (h.texts m hm)

end Row

/-- Different fields are picked as they are asked for. -/
theorem pickFields_eq {names : List String} (hnames : names.Nodup) (row : Row) :
    pickFields (names.map .string) row = .ok (Row.asked (some names) row) := by
  have hpicked : (names.map Json.string).mapM (fun name => do
      let v ← Row.valueOf row name
      .ok (name, v)) = .ok (Row.asked (some names) row).toFields := by
    rw [List.mapM_map, Members.toFields, Row.asked, List.map_map]
    exact mapM_eq_ok fun name _ => rfl
  have hnodup : (Members.names (Row.asked (some names) row)).Nodup := by
    rw [Row.names_asked]
    exact hnames
  rw [pickFields, hpicked, ok_bind, Fields.ofList_toFields hnodup, ok_bind,
    Members.toMembers_toFields]

/-- The rows of a document have what is asked for. -/
theorem selectFields_eq {fields : Option (List String)} (hfields : ∀ names ∈ fields, names.Nodup)
    (rows : List Row) :
    selectFields rows (fields.map fun names => names.map .string)
      = .ok (rows.map (Row.asked fields)) := by
  rcases fields with _ | names
  · rw [show Row.asked none = id from rfl, List.map_id]
    rfl
  · exact mapM_eq_ok fun row _ => pickFields_eq (hfields names rfl) row

/-- A document can be read back if the rows can and their number can. -/
theorem readable_resultDocument {table : String} {rows : List Row}
    (hrows : ∀ row ∈ rows, row.IsRecord) (hcount : Text.withinDigitLimit rows.length = true) :
    (resultDocument table rows).Readable := by
  have hitems : Json.ReadableItems (rows.map rowDocument) := by
    rw [Json.readableItems_iff]
    intro item hitem
    rcases List.mem_map.mp hitem with ⟨row, hrow, rfl⟩
    exact (hrows row hrow).readable
  exact ⟨by simp [Members.names], trivial, hcount, hitems, trivial⟩

section

variable {table : String} {rows : List Row} {fields : Option (List String)}

/-- Both texts of rows are read back as one document: the name of the table, the number of rows,
    and for each row what is asked for of it. -/
theorem renderDocument_reads (hrows : ∀ row ∈ rows, row.IsRecord)
    (hfields : ∀ names ∈ fields, names.Nodup) (hcount : Text.withinDigitLimit rows.length = true) :
    ∃ items, List.Forall₂ Row.ShownAs (rows.map (Row.asked fields)) items
      ∧ ∀ compact, ∃ text,
        renderDocument table rows (fields.map fun names => names.map .string) compact = .ok text
          ∧ Json.ofChars text.toList = .ok (.object [("table", .string table),
            ("count", .int rows.length), ("records", .array items)]) := by
  have hasked : ∀ row ∈ rows.map (Row.asked fields), row.IsRecord := by
    intro row hrow
    rcases List.mem_map.mp hrow with ⟨r, hr, rfl⟩
    exact (hrows r hr).asked hfields
  have hlength : (rows.map (Row.asked fields)).length = rows.length := List.length_map _
  refine ⟨(rows.map (Row.asked fields)).map rowDocument, ?_, fun compact => ?_⟩
  · rw [List.forall₂_map_right_iff, List.forall₂_same]
    exact fun row hrow => (hasked row hrow).shownAs
  · have htexts : (rows.map (Row.asked fields)).all Row.hasText = true :=
      List.all_eq_true.mpr fun row hrow => List.all_eq_true.mpr (hasked row hrow).texts
    have hplain : (if compact then JsonStyle.compact else JsonStyle.indented).Plain := by
      cases compact with
      | true => exact JsonStyle.compact_plain
      | false => exact JsonStyle.indented_plain
    have hreadable : (resultDocument table (rows.map (Row.asked fields))).Readable :=
      readable_resultDocument hasked (by rw [hlength]; exact hcount)
    have hread := Json.ofChars_write hplain hreadable
    refine ⟨_, by rw [renderDocument, selectFields_eq hfields, ok_bind, if_pos htexts], ?_⟩
    rw [Json.toText, String.toList_ofList, hread, resultDocument, hlength]

end

theorem Row.isRecord_everyKind : Row.everyKind.IsRecord where
  names := by decide
  scalar := by simp [everyKind, Value.IsScalar]
  texts := by decide +kernel

/-- A row with values of every kind and one without any, of which three fields are asked for. No
    row has the second field. -/
theorem renderDocument_reads_everyKind :
    (∀ row ∈ [Row.everyKind, []], row.IsRecord)
      ∧ (∀ names ∈ some ["é", "none", "\"\\"], names.Nodup)
      ∧ Text.withinDigitLimit [Row.everyKind, []].length = true
      ∧ ∃ items, List.Forall₂ Row.ShownAs
          [[("é", .bytes [0, 255, 10, 7]), ("none", .null), ("\"\\", .text "😀'\n")],
            [("é", .null), ("none", .null), ("\"\\", .null)]] items
        ∧ ∀ compact, ∃ text,
          renderDocument "t" [Row.everyKind, []]
              (some [.string "é", .string "none", .string "\"\\"]) compact = .ok text
            ∧ Json.ofChars text.toList = .ok (.object [("table", .string "t"), ("count", .int 2),
              ("records", .array items)]) := by
  have hrows : ∀ row ∈ [Row.everyKind, []], row.IsRecord := by
    rw [List.forall_mem_cons, List.forall_mem_singleton]
    exact ⟨Row.isRecord_everyKind, List.nodup_nil, List.forall_mem_nil _, List.forall_mem_nil _⟩
  have hfields : ∀ names ∈ some ["é", "none", "\"\\"], names.Nodup := by
    rintro names ⟨⟩
    decide
  have hcount : Text.withinDigitLimit [Row.everyKind, []].length = true := by decide
  exact ⟨hrows, hfields, hcount, renderDocument_reads hrows hfields hcount⟩

end TableStore
