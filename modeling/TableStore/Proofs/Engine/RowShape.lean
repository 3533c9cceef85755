import TableStore.Engine.Manipulation
import TableStore.Proofs.Engine.Rows
import TableStore.Proofs.Value.ColumnType

/-!
# The Shape of New Rows

A value reaches a row on one of four ways: it was supplied, it is a default, it
was assigned, or it was computed from an old value. All of them end in a
coercion to the column's type, and coercion has nothing left to do for what it
gave. So a row that is put together for an insertion has the shape that its
schema asks for, and a change of a row keeps it.

The defaults are the way to watch. They are stored as they were written and
only coerced when a row is made, so what is used is what the stored schema
gives back.

## Main definitions

* `Column.Holds`: A member that holds a value of its column.
* `Column.Fills`: A member that holds what was supplied for its column.
* `TableSchema.Supplies`: A row that holds what was supplied for its columns.
* `TableSchema.Fills`: A row that holds this, and defaults in the other columns.

## Theorems

* `buildRow_members`: The values that an insertion describes.
* `supplies_of_buildRow`: What is supplied for the columns.
* `accepts_of_buildRow`: The row that an insertion stores.
* `accepts_of_assignRow`: The row that an update stores.
-/

namespace TableStore

/-- A member that holds a value of its column. -/
structure Column.Holds (column : Column) (member : String × Value) : Prop where
  name_eq : member.1 = column.name
  typed : member.2.coerce column.typeName column.name = .ok member.2
  regular : member.2.IsRegular

/-- A member that holds the value of its column which was supplied, or else the default. -/
structure Column.Fills (supplied : Fields Value) (column : Column) (member : String × Value) : Prop
    extends column.Holds member where
  filled : ((supplied.get? (.text column.name)).getD column.default).coerce column.typeName
    column.name = .ok member.2

theorem Fields.find_string {α : Type} (fields : Fields α) (name : String) :
    fields.find (.string name) = .ok (fields.get? (.text name)) :=
  rfl

/-- The values that an insertion describes, after those that are there
    already. -/
theorem buildRow_members {supplied : Fields Value} (hsupplied : ∀ f ∈ supplied, f.2.IsRegular)
    {columns : List Column} (hdefault : ∀ column ∈ columns, column.default.IsRegular)
    (hstorable : ∀ column ∈ columns, column.isStorable = true) (before : Members Value)
    (hnodup : (Members.names before ++ columns.map Column.name).Nodup) {row : Fields Value}
    (h : buildRow supplied before.toFields (columns.map Column.stored) = .ok row) :
    ∃ members : Members Value, row = (before ++ members : Members Value).toFields
      ∧ List.Forall₂ (Column.Fills supplied) columns members := by
  induction columns generalizing before with
  | nil =>
    rw [← Except.ok.inj h]
    exact ⟨[], by rw [List.append_nil], .nil⟩
  | cons column columns ih =>
    rw [List.map_cons, buildRow] at h
    rcases exists_of_bind_eq_ok h with ⟨given, hgiven, h⟩
    rcases exists_of_bind_eq_ok h with ⟨v, hv, h⟩
    rcases exists_of_bind_eq_ok h with ⟨next, hnext, h⟩
    have hfind : supplied.get? (.text column.name) = given := Except.ok.inj hgiven
    rw [← hfind, Column.coerce_stored, Column.ofPlain_default
      (hdefault column List.mem_cons_self).scalar (hstorable column List.mem_cons_self)] at hv
    -- What is coerced is a supplied value or the default as it was declared.
    have hraw : ((supplied.get? (.text column.name)).getD column.default).IsRegular := by
      rcases hget : supplied.get? (.text column.name) with _ | u
      · exact hdefault column List.mem_cons_self
      · rcases Fields.mem_of_get? hget with ⟨f, hf, hu⟩
        rw [Option.getD_some, ← hu]
        exact hsupplied f hf
    have hname : column.name ∉ Members.names before := by
      intro hmem
      rw [List.nodup_append] at hnodup
      exact hnodup.2.2 _ hmem _ (by simp) rfl
    have hset : next = (before ++ [(column.name, v)] : Members Value).toFields := by
      rw [Column.stored, Fields.give_toFields, Members.set_of_not_mem hname] at hnext
      exact (Except.ok.inj hnext).symm
    rw [hset] at h
    rcases ih (fun c hc => hdefault c (List.mem_cons_of_mem _ hc))
      (fun c hc => hstorable c (List.mem_cons_of_mem _ hc)) _
      (by simpa [Members.names] using hnodup) h with ⟨members, hrow, hall⟩
    refine ⟨(column.name, v) :: members, ?_, .cons ⟨⟨rfl, ?_, ?_⟩, hv⟩ hall⟩
    · rw [hrow, List.append_assoc, List.singleton_append]
    · exact Value.coerce_coerce hv column.name
    · exact Value.isRegular_of_coerce hraw hv

theorem Row.value_set (row : Row) (name other : String) (v : Value) :
    Row.value (Members.set row name v) other = if other = name then v else Row.value row other := by
  rw [Row.value, Members.get?_set]
  split <;> rfl

theorem names_of_holds {columns : List Column} {members : Members Value}
    (h : List.Forall₂ Column.Holds columns members) :
    Members.names members = columns.map Column.name := by
  induction h with
  | nil => rfl
  | cons hhead _ ih =>
    rw [Members.names, List.map_cons, List.map_cons, hhead.name_eq]
    exact congrArg _ ih

theorem holds_of_mem {columns : List Column} {members : Members Value}
    (h : List.Forall₂ Column.Holds columns members) :
    (∀ column ∈ columns, ∃ v, (column.name, v) ∈ members
      ∧ v.coerce column.typeName column.name = .ok v) ∧ ∀ member ∈ members, member.2.IsRegular := by
  constructor
  · intro column hcolumn
    rcases exists_of_forall₂ h hcolumn with ⟨member, hmember, hholds⟩
    exact ⟨member.2, by rw [← hholds.name_eq]; exact hmember, hholds.typed⟩
  · intro member hmember
    rcases exists_of_forall₂ h.flip hmember with ⟨column, -, hholds⟩
    exact hholds.regular

/-- The values that an insertion describes are named members, one for each
    column and filled with what was supplied. -/
theorem fills_of_buildRow {schema : TableSchema} (hwell : schema.WellFormed) {data : Bytes}
    (hbytes : schema.toBytes = .ok data) {supplied : Fields Value}
    (hsupplied : ∀ f ∈ supplied, f.2.IsRegular) {row : Fields Value}
    (h : buildRow supplied [] schema.stored.columns = .ok row) :
    ∃ members : Row, row = Members.toFields members
      ∧ List.Forall₂ (Column.Fills supplied) schema.columns members := by
  rcases TableSchema.storable_of_toBytes hbytes with ⟨hstorable, -, -⟩
  exact buildRow_members hsupplied hwell.default_regular hstorable []
    (by rw [Members.names, List.map_nil, List.nil_append]; exact hwell.names_nodup) h

theorem members_of_buildRow {schema : TableSchema} (hwell : schema.WellFormed) {data : Bytes}
    (hbytes : schema.toBytes = .ok data) {supplied : Fields Value}
    (hsupplied : ∀ f ∈ supplied, f.2.IsRegular) {row : Fields Value}
    (h : buildRow supplied [] schema.stored.columns = .ok row) :
    ∃ members : Row, row = Members.toFields members
      ∧ List.Forall₂ Column.Holds schema.columns members := by
  rcases fills_of_buildRow hwell hbytes hsupplied h with ⟨members, hrow, hall⟩
  exact ⟨members, hrow, hall.imp fun _ _ hfills => hfills.toHolds⟩

/-- The columns have different names, so a row has one value for each, and that is the one
    it was filled with. -/
theorem filled_of_fills {schema : TableSchema} (hwell : schema.WellFormed)
    {supplied : Fields Value} {members : Row}
    (h : List.Forall₂ (Column.Fills supplied) schema.columns members) :
    ∀ column ∈ schema.columns, ((supplied.get? (.text column.name)).getD column.default).coerce
      column.typeName column.name = .ok (Row.value members column.name) := by
  intro column hcolumn
  rcases exists_of_forall₂ h hcolumn with ⟨member, hmember, hfills⟩
  have hnames : (Members.names members).Nodup := by
    rw [names_of_holds (h.imp fun _ _ h => h.toHolds)]
    exact hwell.names_nodup
  have hvalue : Row.value members column.name = member.2 := by
    rw [Row.value, Members.get?_of_mem hnames (a := member.2)
      (by rw [← hfills.name_eq]; exact hmember), Option.getD_some]
  rw [hvalue]
  exact hfills.filled

/-- A row that has what is supplied for its columns, in the form of the columns. -/
def TableSchema.Supplies (schema : TableSchema) (supplied : Members Value) (row : Row) : Prop :=
  ∀ column ∈ schema.columns, ∀ given, (column.name, given) ∈ supplied →
    given.coerce column.typeName column.name = .ok (Row.value row column.name)

/-- A row that is filled with what was supplied for its columns and with the defaults of the
    others, all in the form of the columns, and that has its id after them. -/
structure TableSchema.Fills (schema : TableSchema) (supplied : Members Value) (id : String)
    (row : Row) : Prop where
  names : Members.names row = schema.names ++ [rowIdMember]
  filed : Members.get? row rowIdMember = some (.text id)
  filled : ∀ column ∈ schema.columns, ((Members.get? supplied column.name).getD
    column.default).coerce column.typeName column.name = .ok (Row.value row column.name)

/-- What is supplied for a column is in its form in the row. -/
theorem TableSchema.Fills.supplies {schema : TableSchema} {supplied : Members Value} {id : String}
    {row : Row} (h : schema.Fills supplied id row) (hnodup : (Members.names supplied).Nodup) :
    schema.Supplies supplied row := by
  intro column hcolumn given hgiven
  have hfilled := h.filled column hcolumn
  rwa [Members.get?_of_mem hnodup hgiven] at hfilled

/-- The values of a new row are the supplied ones, coerced. -/
theorem supplies_of_buildRow {schema : TableSchema} (hwell : schema.WellFormed) {data : Bytes}
    (hbytes : schema.toBytes = .ok data) {supplied : Members Value}
    (hnodup : (Members.names supplied).Nodup) (hregular : ∀ member ∈ supplied, member.2.IsRegular)
    {built : Fields Value}
    (hbuilt : buildRow (Members.toFields supplied) [] schema.stored.columns = .ok built) :
    ∃ members, built = Members.toFields members ∧ schema.Supplies supplied members := by
  have hfields : ∀ f ∈ Members.toFields supplied, f.2.IsRegular := by
    intro f hf
    rcases List.mem_map.mp hf with ⟨member, hmember, rfl⟩
    exact hregular member hmember
  rcases fills_of_buildRow hwell hbytes hfields hbuilt with ⟨members, rfl, hall⟩
  refine ⟨members, rfl, fun column hcolumn given hgiven => ?_⟩
  have hfilled := filled_of_fills hwell hall column hcolumn
  rwa [Members.get?_toFields, Members.get?_of_mem hnodup hgiven] at hfilled

/-- Values that are supplied for different columns. -/
theorem ofList_supplied {names : List String} {values : List Value} (hnodup : names.Nodup)
    (hlength : names.length = values.length) :
    Fields.ofList ((names.map Json.string).zip values) = .ok (Members.toFields (names.zip values))
      ∧ (Members.names (names.zip values)).Nodup := by
  have hapart : (Members.names (names.zip values)).Nodup := by
    rw [Members.names, List.map_fst_zip hlength.le]
    exact hnodup
  have hzip : (names.map Json.string).zip values = Members.toFields (names.zip values) := by
    rw [List.zip_map_left]
    rfl
  exact ⟨by rw [hzip, Fields.ofList_toFields hapart], hapart⟩

/-- The row that an insertion stores has the shape that its schema asks for. -/
theorem accepts_of_buildRow {schema : TableSchema} (hwell : schema.WellFormed)
    (hids : schema.KeepsIds) {data : Bytes} (hbytes : schema.toBytes = .ok data)
    {supplied : Fields Value} (hsupplied : ∀ f ∈ supplied, f.2.IsRegular) {row : Fields Value}
    (h : buildRow supplied [] schema.stored.columns = .ok row) (id : String) :
    schema.Accepts id
      (Fields.toMembers (row.set (.string rowIdMember) (.text rowIdMember) (.text id))) := by
  rcases members_of_buildRow hwell hbytes hsupplied h with ⟨members, rfl, hall⟩
  have hnames : Members.names members = schema.names := names_of_holds hall
  rcases holds_of_mem hall with ⟨htyped, hregular⟩
  -- The member for the id is added last, for no column has its name.
  have hfresh : rowIdMember ∉ Members.names members := by
    rw [hnames]
    exact hids
  rw [Members.set_toFields, Members.toMembers_toFields]
  constructor
  · rw [Members.set_of_not_mem hfresh, ← hnames, Members.names, List.map_append]
    rfl
  · rw [Members.get?_set, if_pos rfl]
  · intro column hcolumn
    rcases htyped column hcolumn with ⟨v, hv, hcoerce⟩
    have hget := Members.get?_of_mem (by rw [hnames]; exact hwell.names_nodup) hv
    have hne : column.name ≠ rowIdMember := by
      intro heq
      exact hids (heq ▸ List.mem_map.mpr ⟨column, hcolumn, rfl⟩)
    rw [Row.value_set, if_neg hne, Row.value, hget, Option.getD_some]
    exact hcoerce
  · intro member hmember
    rcases Members.mem_of_mem_set hmember with hv | hmem
    · rw [hv]
      exact ⟨trivial, rfl⟩
    · exact hregular member hmem

theorem Fields.regular_of_ofList {pairs : List (Json × Value)} (hpairs : ∀ p ∈ pairs, p.2.IsRegular)
    {fields : Fields Value} (h : Fields.ofList pairs = .ok fields) : ∀ f ∈ fields, f.2.IsRegular := by
  -- Fields are given one by one, so the induction is on those that are left.
  have hfold : ∀ (todo : List (Json × Value)) (done fields : Fields Value),
      (∀ p ∈ todo, p.2.IsRegular) → (∀ f ∈ done, f.2.IsRegular) →
      todo.foldlM (fun fields pair => Fields.give fields pair.1 pair.2) done = .ok fields →
      ∀ f ∈ fields, f.2.IsRegular := by
    intro todo
    induction todo with
    | nil =>
      intro done fields _ hdone h
      rw [← Except.ok.inj h]
      exact hdone
    | cons pair todo ih =>
      intro done fields htodo hdone h
      rw [List.foldlM_cons] at h
      rcases exists_of_bind_eq_ok h with ⟨next, hnext, h⟩
      refine ih next fields (fun p hp => htodo p (List.mem_cons_of_mem _ hp)) ?_ h
      rcases exists_of_bind_eq_ok hnext with ⟨key, -, hnext⟩
      rw [← Except.ok.inj hnext]
      intro f hf
      rcases Fields.mem_of_mem_set hf with hv | hmem
      · rw [hv]
        exact htodo pair List.mem_cons_self
      · exact hdone f hmem
  exact hfold pairs [] fields hpairs (fun f hf => absurd hf (by simp)) h

theorem regular_of_zip {names : List Json} {values : List Value} (h : ∀ v ∈ values, v.IsDenoted) :
    ∀ p ∈ names.zip values, p.2.IsRegular := by
  intro p hp
  exact (h p.2 (List.of_mem_zip (a := p.1) (b := p.2) hp).2).isRegular

theorem Arithmetic.isFinite_of_operand {n : Int} {d : Double}
    (h : Arithmetic.operand n = .ok d) : d.isFinite = true := by
  rw [Arithmetic.operand] at h
  split at h
  · rename_i e he
    rw [← Except.ok.inj h]
    exact Double.isFinite_of_ofInt? he
  · exact absurd h (by simp)

theorem Value.IsRegular.ne_nan {d : Double} (h : Value.IsRegular (.float d)) : d ≠ .nan := by
  rintro rfl
  exact absurd h.ordered (by simp [Value.isNaN])

/-- A sum or a difference is a number if the first operand is one and the second is finite. -/
theorem Arithmetic.isRegular_ofDoubles (op : Arithmetic) {x y : Double} (hx : x ≠ .nan)
    (hy : y.isFinite = true) : Value.IsRegular (.float (op.ofDoubles x y)) := by
  have hnumber : op.ofDoubles x y ≠ .nan := by
    cases op
    · exact Double.add_ne_nan hx hy
    · exact Double.add_ne_nan hx (by rw [Double.isFinite_neg]; exact hy)
  refine ⟨trivial, ?_⟩
  cases hd : op.ofDoubles x y with
  | nan => exact absurd hd hnumber
  | _ => rfl

/-- Arithmetic with a finite number ends in a number. -/
theorem Arithmetic.isRegular_compute {op : Arithmetic} {a b v : Value} (ha : a.IsRegular)
    (hb : b.IsDenoted) (h : op.compute a b = .ok v) : v.IsRegular := by
  cases a <;> cases b <;> simp only [Arithmetic.compute, reduceCtorEq] at h
  case int.int | int.bool =>
    rw [← Except.ok.inj h]
    exact ⟨trivial, rfl⟩
  -- An integer beside a float is used as a double, which is finite or an error.
  case int.float n d =>
    rcases exists_of_bind_eq_ok h with ⟨x, hx, h⟩
    rw [← Except.ok.inj h]
    have hfinite := Arithmetic.isFinite_of_operand hx
    refine op.isRegular_ofDoubles ?_ hb
    rintro rfl
    exact absurd hfinite Bool.false_ne_true
  case float.float d e =>
    rw [← Except.ok.inj h]
    exact op.isRegular_ofDoubles ha.ne_nan hb
  case float.int | float.bool =>
    rcases exists_of_bind_eq_ok h with ⟨y, hy, h⟩
    rw [← Except.ok.inj h]
    exact op.isRegular_ofDoubles ha.ne_nan (Arithmetic.isFinite_of_operand hy)

/-- An assignment gives a regular value if it starts from one. -/
theorem Assignment.isRegular_apply {assignment : Assignment} (h : assignment.value.IsDenoted)
    {current v : Value} (hcurrent : current.IsRegular) (hv : assignment.apply current = .ok v) :
    v.IsRegular := by
  unfold Assignment.apply at hv
  split at hv
  · rw [← Except.ok.inj hv]
    exact h.isRegular
  · split at hv
    · exact Arithmetic.isRegular_compute (a := .int 0) ⟨trivial, rfl⟩ h hv
    · exact Arithmetic.isRegular_compute hcurrent h hv
    · exact Arithmetic.isRegular_compute hcurrent h hv
    · exact absurd hv (by simp)

/-- The value of a row in a column is one of its members or null. -/
theorem Row.isRegular_value {row : Row} (h : ∀ member ∈ row, member.2.IsRegular) (name : String) :
    (Row.value row name).IsRegular := by
  rw [Row.value]
  rcases hget : Members.get? row name with _ | v
  · exact ⟨trivial, rfl⟩
  · exact h _ (Members.mem_of_get? hget)

/-- A column of a row changed to a value that fits it. -/
theorem TableSchema.Accepts.set {schema : TableSchema} (hwell : schema.WellFormed)
    (hids : schema.KeepsIds) {id : String} {row : Row} (h : schema.Accepts id row) {column : Column}
    (hcolumn : column ∈ schema.columns) {v : Value}
    (htyped : v.coerce column.typeName column.name = .ok v) (hregular : v.IsRegular) :
    schema.Accepts id (Members.set row column.name v) := by
  have hmem : column.name ∈ schema.names := List.mem_map.mpr ⟨column, hcolumn, rfl⟩
  constructor
  · rw [Members.names_set_of_mem, h.names]
    rw [h.names]
    exact List.mem_append_left _ hmem
  · have hne : rowIdMember ≠ column.name := by
      intro heq
      exact hids (heq ▸ hmem)
    rw [Members.get?_set, if_neg hne, h.filed]
  · intro other hother
    by_cases hname : other.name = column.name
    · -- Columns with one name are one column.
      have hsame : other = column :=
        List.inj_on_of_nodup_map hwell.names_nodup hother hcolumn hname
      rw [hsame, Row.value_set, if_pos rfl]
      exact htyped
    · rw [Row.value_set, if_neg hname]
      exact h.typed other hother
  · intro member hmember
    rcases Members.mem_of_mem_set hmember with hv | hmem'
    · rw [hv]
      exact hregular
    · exact h.regular member hmem'

/-- One assignment of several: it changes a column to what it gives for the old
    row, in the form of the column. -/
theorem exists_of_assignRow_cons {schema : StoredSchema} {assignment : Assignment}
    {assignments : List Assignment} {old row row' : Row}
    (h : assignRow schema old row (assignment :: assignments) = .ok row') :
    ∃ column v stored, schema.column? assignment.column = some column
      ∧ assignment.apply (Row.value old assignment.column) = .ok v ∧ column.coerce v = .ok stored
      ∧ assignRow schema old (Members.set row assignment.column stored) assignments = .ok row' := by
  rw [assignRow] at h
  split at h
  · exact absurd h (by simp)
  · rename_i column hcolumn
    rcases exists_of_bind_eq_ok h with ⟨v, hv, h⟩
    rcases exists_of_bind_eq_ok h with ⟨stored, hstored, h⟩
    exact ⟨column, v, stored, hcolumn, hv, hstored, h⟩

namespace TableSchema

variable {schema : TableSchema} {assignments : List Assignment} {old row row' : Row}

/-- One assignment to a declared column. -/
theorem exists_of_assignRow_cons {assignment : Assignment}
    (h : assignRow schema.stored old row (assignment :: assignments) = .ok row') :
    ∃ column ∈ schema.columns, column.name = assignment.column
      ∧ ∃ v stored, assignment.apply (Row.value old assignment.column) = .ok v
        ∧ v.coerce column.typeName column.name = .ok stored
        ∧ assignRow schema.stored old (Members.set row column.name stored) assignments
          = .ok row' := by
  rcases TableStore.exists_of_assignRow_cons h with ⟨_, v, stored, hcolumn, hv, hstored, hrest⟩
  rcases exists_of_column?_stored hcolumn with ⟨column, hmem, hname, rfl⟩
  rw [Column.coerce_stored] at hstored
  rw [← hname] at hrest
  exact ⟨column, hmem, hname, v, stored, hv, hstored, hrest⟩

/-- What assignments keep of a row: all that is kept when an assigned column is
    changed to a regular value that fits it. -/
theorem keeps_of_assignRow {P : Row → Prop} (hassignments : ∀ a ∈ assignments, a.value.IsDenoted)
    (hold : ∀ member ∈ old, member.2.IsRegular)
    (hset : ∀ a ∈ assignments, ∀ column ∈ schema.columns, column.name = a.column →
      ∀ v, v.coerce column.typeName column.name = .ok v → v.IsRegular →
      ∀ row, P row → P (Members.set row column.name v))
    (hrow : P row) (h : assignRow schema.stored old row assignments = .ok row') : P row' := by
  induction assignments generalizing row with
  | nil =>
    rw [← Except.ok.inj h]
    exact hrow
  | cons assignment assignments ih =>
    rcases exists_of_assignRow_cons h with ⟨column, hmem, hname, v, stored, hv, hstored, hrest⟩
    -- Every assignment computes with the old row, whose values are regular.
    have hregular := Assignment.isRegular_apply (hassignments assignment List.mem_cons_self)
      (Row.isRegular_value hold _) hv
    exact ih (fun a ha => hassignments a (List.mem_cons_of_mem _ ha))
      (fun a ha => hset a (List.mem_cons_of_mem _ ha))
      (hset assignment List.mem_cons_self column hmem hname stored
        (Value.coerce_coerce hstored _) (Value.isRegular_of_coerce hregular hstored) row hrow) hrest

end TableSchema

/-- The row that an update stores has the shape that its schema asks for. -/
theorem accepts_of_assignRow {schema : TableSchema} (hwell : schema.WellFormed)
    (hids : schema.KeepsIds) {assignments : List Assignment}
    (hassignments : ∀ a ∈ assignments, a.value.IsDenoted) {id : String} {old row row' : Row}
    (hold : schema.Accepts id old) (hrow : schema.Accepts id row) (h : assignRow schema.stored old row assignments = .ok row') :
    schema.Accepts id row' :=
  TableSchema.keeps_of_assignRow hassignments hold.regular
    (fun _ _ _ hcolumn _ _ htyped hregular _ hrow => hrow.set hwell hids hcolumn htyped hregular)
    hrow h

end TableStore
