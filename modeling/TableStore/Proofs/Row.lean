import TableStore.Proofs.Json.RoundTrip
import TableStore.Proofs.Text.Base64
import TableStore.Row

/-!
# Rows Read Back

A row that is stored is read back as it was, each value with its kind. This
needs two things of the row. Its names must be different, and its values must
be scalars: an object with the reserved member would come back as bytes, and
rows only ever get their values from literals and from other scalars.

Bytes are the one kind with a detour. They are written as an object with the
reserved member, and the text in that member is ASCII because the alphabet of
base 64 is.

## Main definitions

* `Value.IsScalar`: A value that is neither an array nor an object.
* `Value.IsRegular`: A scalar that is not NaN.
* `Value.IsDenoted`: What a literal can denote.
* `Row.everyKind`: A row with values of every kind.

## Theorems

* `Value.ofJson_toJson`: A scalar is read back.
* `Row.ofBytes_toBytes`: A row that has a stored form is read back from it.
* `Row.stored_and_read_back`: A row of scalars has a stored form, and it is
  read back from it.
-/

namespace TableStore

namespace Value

theorem eq_null_of_isNull {v : Value} (h : v.isNull = true) : v = null := by
  cases v with
  | null => rfl
  | _ => exact absurd h Bool.false_ne_true

/-- A value that is neither an array nor an object. -/
def IsScalar : Value → Prop
  | array _ => False
  | object _ => False
  | _ => True

/-- A scalar that is not NaN. -/
structure IsRegular (v : Value) : Prop where
  scalar : v.IsScalar
  ordered : v.isNaN = false

/-- What a literal can denote: a finite number, a text, a word, and no bytes. -/
def IsDenoted : Value → Prop
  | float d => d.isFinite = true
  | bytes _ => False
  | array _ => False
  | object _ => False
  | _ => True

theorem IsDenoted.isRegular {v : Value} (h : v.IsDenoted) : v.IsRegular := by
  cases v with
  | float d =>
    cases d with
    | nan => exact absurd h Bool.false_ne_true
    | _ => exact ⟨trivial, rfl⟩
  | bytes b => exact absurd h id
  | array items => exact absurd h id
  | object members => exact absurd h id
  | _ => exact ⟨trivial, rfl⟩

/-- A scalar is read back. -/
theorem ofJson_toJson {v : Value} (h : v.IsScalar) : ofJson v.toJson = .ok v := by
  cases v with
  | bytes b =>
    simp only [toJson, ofJson, Members.get?, if_true, ofBlob, String.toList_ofList,
      Text.toBase64_ascii, Text.ofBase64?_toBase64]
  | array items => exact absurd h id
  | object members => exact absurd h id
  | _ => rfl

/-- A scalar other than bytes is the plain value of its stored form. -/
theorem ofPlain_toJson {v : Value} (h : v.IsScalar) (hb : ∀ b, v ≠ bytes b) :
    ofPlain v.toJson = v := by
  cases v with
  | bytes b => exact absurd rfl (hb b)
  | array items => exact absurd h id
  | object members => exact absurd h id
  | _ => rfl

theorem readable_toJson {v : Value} (h : v.IsScalar) (htext : v.hasText = true) :
    v.toJson.Readable := by
  cases v with
  | int n => exact htext
  | bytes b => exact ⟨List.nodup_singleton _, trivial, trivial⟩
  | array items => exact absurd h id
  | object members => exact absurd h id
  | _ => trivial

end Value

theorem Json.readableMembers_iff {members : List (String × Json)} :
    ReadableMembers members ↔ ∀ member ∈ members, member.2.Readable := by
  induction members with
  | nil => simp [ReadableMembers]
  | cons member members ih =>
    rcases member with ⟨name, item⟩
    rw [ReadableMembers, ih, List.forall_mem_cons]

theorem Json.readableItems_iff {items : List Json} :
    ReadableItems items ↔ ∀ item ∈ items, item.Readable := by
  induction items with
  | nil => simp [ReadableItems]
  | cons item items ih => rw [ReadableItems, ih, List.forall_mem_cons]

namespace Row

theorem readable_toJson {row : Row} (hnames : (Members.names row).Nodup)
    (hscalar : ∀ member ∈ row, member.2.IsScalar) (htext : row.hasText = true) :
    (toJson row).Readable := by
  refine ⟨?_, Json.readableMembers_iff.mpr fun member hmember => ?_⟩
  · rw [Members.names, List.map_map]
    exact hnames
  · rcases List.mem_map.mp hmember with ⟨m, hm, rfl⟩
    exact Value.readable_toJson (hscalar m hm) (List.all_eq_true.mp htext m hm)

/-- A row is read back. -/
theorem ofBytes_toBytes {row : Row} {data : Bytes} (hnames : (Members.names row).Nodup)
    (hscalar : ∀ member ∈ row, member.2.IsScalar) (h : row.toBytes = .ok data) :
    Row.ofBytes data = .ok row := by
  rw [toBytes] at h
  split at h
  · rename_i htext
    rw [← Except.ok.inj h, Row.ofBytes, Json.ofBytes_write JsonStyle.spaced_plain
      (readable_toJson hnames hscalar htext), ok_bind, toJson, ofJson]
    refine mapM_map_eq_ok fun member hmember => ?_
    rw [Value.ofJson_toJson (hscalar member hmember)]
    rfl
  · exact absurd h (by simp)

/-- A row of scalars has a stored form if its integers are within the digit
    limit, and the same row is read from it: the same names in the same order,
    each with the same value of the same kind. -/
theorem stored_and_read_back {row : Row} (hnames : (Members.names row).Nodup)
    (hscalar : ∀ member ∈ row, member.2.IsScalar) (htext : row.hasText = true) :
    ∃ data, row.toBytes = .ok data ∧ Row.ofBytes data = .ok row := by
  have hbytes : row.toBytes = .ok (Text.encodeChars (Json.write .spaced 0 (toJson row))) := by
    rw [toBytes, if_pos htext]
  exact ⟨_, hbytes, ofBytes_toBytes hnames hscalar hbytes⟩

/-- A row with values of every kind, among them the integer, the float and the
    truth value that are one, the zero with a sign, and names and a text that
    need escapes. -/
def everyKind : Row :=
  [("_id", .text "1"), ("\"\\", .text "😀'\n"), ("null", .null), ("one", .int 1),
    ("1.0", .float (.finite false 0x3FF0000000000000)), ("truth", .bool true),
    ("-0.0", .float (.finite true 0)), ("inf", .float (.infinite true)), ("far", .int (-10 ^ 40)),
    ("é", .bytes [0, 255, 10, 7])]

theorem stored_and_read_back_everyKind :
    (Members.names everyKind).Nodup ∧ (∀ member ∈ everyKind, member.2.IsScalar)
      ∧ everyKind.hasText = true
      ∧ ∃ data, everyKind.toBytes = .ok data ∧ Row.ofBytes data = .ok everyKind := by
  have hnames : (Members.names everyKind).Nodup := by decide
  have hscalar : ∀ member ∈ everyKind, member.2.IsScalar := by
    simp [everyKind, Value.IsScalar]
  have htext : everyKind.hasText = true := by decide +kernel
  exact ⟨hnames, hscalar, htext, stored_and_read_back hnames hscalar htext⟩

theorem toBytes_error {row : Row} {fault : Fault} (h : row.toBytes = .error fault) :
    fault = .digitLimit := by
  rw [toBytes] at h
  split at h
  · exact absurd h (by simp)
  · exact (Except.error.inj h).symm

end Row

end TableStore
