import TableStore.Proofs.Engine.Indexed
import TableStore.Proofs.Engine.Matching
import TableStore.Proofs.Engine.Rows

/-!
# Finding Rows

The rows of a table lie in the store in the order of their ids. What the full
scan returns are those among them that satisfy the conditions. A plan through
an index looks at a part of them, those whose value has the bytes that the
condition asks for, and it looks at them in the same order, because the keys of
entries with one value end in the row's id just as the keys of rows do.

A row outside that part has a value with other bytes, hence a value that is not
equal to the literal, so a condition fails on it. Both plans thus look at all
rows except some on which a condition fails.

## Main definitions

* `FiledRow`: A row as it is stored and read.
* `Contents.HoldsRows`: The rows of a table in order.
* `Finds`: What a plan returns.
* `Searches`: A way of finding rows, whatever they are.
* `KeyLayout.Places`: A value that an index has a place for.

## Theorems

* `exists_rows`: The rows of a described table.
* `Index.looks_rowIds`: The ids that an index lists.
* `Engine.exists_search`: How rows are found.
* `Engine.looks_allRows`, `looks_findRows`: The rows that are found.
* `Engine.looks_findRows_placed`: When the rows that satisfy conditions are found.
* `Finds.agree`: Two plans that find rows find the same.
-/

namespace TableStore

open Access

variable {d : Description} {layout : KeyLayout} {table : String} {w : World}

/-- The stored form of a row that has one. -/
def Row.bytes (row : Row) : Bytes :=
  match row.toBytes with
  | .ok data => data
  | .error _ => []

theorem Row.bytes_eq {row : Row} {data : Bytes} (h : row.toBytes = .ok data) :
    Row.bytes row = data := by
  rw [Row.bytes, h]

/-- A row with its id as an entry of the store. -/
def rowEntry (layout : KeyLayout) (table : String) (p : String × Row) : Entry :=
  ((Slot.row table (Text.encode p.1)).key layout, Row.bytes p.2)

/-- Rows are in the order of their ids. -/
theorem rowEntry_lt_iff {p q : String × Row} :
    (rowEntry layout table p).1 < (rowEntry layout table q).1
      ↔ Key.encodeComponent (Text.encode p.1) < Key.encodeComponent (Text.encode q.1) := by
  rw [rowEntry, rowEntry, ← Slot.rowKey_eq, ← Slot.rowKey_eq, KeyLayout.rowKey, KeyLayout.rowKey]
  exact Bytes.append_lt_append_iff

/-- A row with an id that has a place in a key, in the shape that its table
    asks for, and that is read as it was stored. -/
structure FiledRow (table : String) (schema : TableSchema) (p : String × Row) : Prop where
  fits : (Slot.row table (Text.encode p.1)).Fits
  accepts : schema.Accepts p.1 p.2
  read : Row.ofBytes (Row.bytes p.2) = .ok p.2

/-- The rows of a table in the order of their ids. -/
structure Contents.HoldsRows (layout : KeyLayout) (c : Contents) (table : String)
    (schema : TableSchema) (rows : List (String × Row)) : Prop where
  scan : (c.entries.filter fun e => Bytes.carries (layout.rowPrefix table) e.1)
    = rows.map (rowEntry layout table)
  filed : ∀ p ∈ rows, FiledRow table schema p

/-- The rows of a described table. -/
theorem exists_rows (hw : d.Describes layout w.store) {schema : TableSchema}
    (ht : d.tables table = some schema) (hids : schema.KeepsIds) :
    ∃ rows, w.store.HoldsRows layout table schema rows := by
  have hname := hw.wellFormed.schema_fits table schema ht
  -- Each entry is read by itself.
  have hfound : ∀ e ∈ w.store.entries.filter fun e => Bytes.carries (layout.rowPrefix table) e.1,
      ∃ p : String × Row, FiledRow table schema p ∧ e = rowEntry layout table p := by
    rintro ⟨key, value⟩ he
    rcases List.mem_filter.mp he with ⟨hmem, hcarries⟩
    rcases exists_row_slot hname hcarries (hw.binds _ _ (Contents.mem_entries.mp hmem)) with
      ⟨id, hfits, hkey, hallows⟩
    rcases hallows.read hw.wellFormed ht hids with ⟨name, row, rfl, haccepts, hread, hbytes⟩
    have hvalue := Row.bytes_eq hbytes
    exact ⟨(name, row), ⟨hfits, haccepts, by rw [hvalue]; exact hread⟩,
      by rw [rowEntry, hvalue, ← show key = _ from hkey]⟩
  rcases exists_map_of_forall hfound with ⟨rows, hscan, hrows⟩
  exact ⟨rows, hscan, hrows⟩

namespace Contents.HoldsRows

variable {c : Contents} {schema : TableSchema} {rows : List (String × Row)}

theorem get?_row (h : c.HoldsRows layout table schema rows) {p : String × Row} (hp : p ∈ rows) :
    c.get? ((Slot.row table (Text.encode p.1)).key layout) = some (Row.bytes p.2) := by
  have hmem : rowEntry layout table p ∈ c.entries.filter fun e =>
      Bytes.carries (layout.rowPrefix table) e.1 := by
    rw [h.scan]
    exact List.mem_map_of_mem hp
  exact Contents.mem_entries.mp (List.mem_filter.mp hmem).1

theorem rowAt_eq (h : c.HoldsRows layout table schema rows) {p : String × Row} (hp : p ∈ rows) :
    c.rowAt layout table (Text.encode p.1) = some p.2 := by
  rw [Contents.rowAt, h.get?_row hp, Option.bind_some, (h.filed p hp).read]
  rfl

theorem mem_of_get? (h : c.HoldsRows layout table schema rows) {id data : Bytes}
    (hfits : (Slot.row table id).Fits)
    (hget : c.get? ((Slot.row table id).key layout) = some data) :
    ∃ p ∈ rows, id = Text.encode p.1 ∧ data = Row.bytes p.2 := by
  have hcarries : Bytes.carries (layout.rowPrefix table) ((Slot.row table id).key layout) = true :=
    (Slot.carries_rowPrefix hfits hfits.table_fits).mpr ⟨id, rfl⟩
  have hmem : ((Slot.row table id).key layout, data) ∈ rows.map (rowEntry layout table) := by
    rw [← h.scan]
    exact List.mem_filter.mpr ⟨Contents.mem_entries.mpr hget, hcarries⟩
  rcases List.mem_map.mp hmem with ⟨p, hp, heq⟩
  rcases Prod.mk.inj heq with ⟨hkey, hdata⟩
  have hslot := Slot.key_injective (h.filed p hp).fits hfits hkey
  rw [Slot.row.injEq] at hslot
  exact ⟨p, hp, hslot.2.symm, hdata.symm⟩

theorem ascending (h : c.HoldsRows layout table schema rows) :
    rows.Pairwise fun p q => Key.encodeComponent (Text.encode p.1)
      < Key.encodeComponent (Text.encode q.1) := by
  have hasc : Ascending (rows.map (rowEntry layout table)) := by
    rw [← h.scan]
    exact c.ascending.sublist List.filter_sublist
  rw [Ascending, List.pairwise_map] at hasc
  exact hasc.imp rowEntry_lt_iff.mp

theorem nodup (h : c.HoldsRows layout table schema rows) : (rows.map Prod.fst).Nodup := by
  rw [List.Nodup, List.pairwise_map]
  refine h.ascending.imp ?_
  intro p q hlt heq
  rw [heq] at hlt
  exact List.lt_irrefl _ hlt

end Contents.HoldsRows

/-- A row with its id as it is found. -/
def asFound (p : String × Row) : Value × Row :=
  (.text p.1, p.2)

/-- What a scan of filed rows returns. -/
theorem Engine.matchingRows_rowEntry {schema : TableSchema} {conditions : List Condition}
    {rows : List (String × Row)} (hfiled : ∀ p ∈ rows, FiledRow table schema p) :
    matchingRows conditions (rows.map (rowEntry layout table))
      = (matchesOf conditions rows).map (List.map asFound) := by
  induction rows with
  | nil => rfl
  | cons p rows ih =>
    have hp := hfiled p List.mem_cons_self
    rw [List.map_cons, rowEntry, matchingRows, hp.read, ok_bind, matchesOf,
      ih fun q hq => hfiled q (List.mem_cons_of_mem p hq)]
    rcases satisfies p.2 conditions with fault | matched
    · rfl
    · rw [ok_bind, ok_bind, idOf, hp.accepts.filed]
      cases matched <;> cases matchesOf conditions rows <;> rfl

/-- The rows of a table that are listed in an index under the bytes of a
    value. -/
def listedUnder (column : String) (value : Bytes) (rows : List (String × Row)) :
    List (String × Row) :=
  rows.filter fun p => decide (Key.encodeIndexValue (Row.value p.2 column) = .ok value)

/-- A row that is listed as an entry of the store. -/
def listedEntry (layout : KeyLayout) (table index : String) (value : Bytes) (p : String × Row) :
    Entry :=
  ((Slot.entry table index value (Text.encode p.1)).key layout, Text.encode p.1)

section

variable {schema : TableSchema} {rows : List (String × Row)} {index column : String}
  {value : Bytes}

/-- An entry that is stored is that of a listed row. -/
theorem Contents.HoldsRows.mem_listed (h : w.store.HoldsRows layout table schema rows)
    (hindexed : d.IndexedIn layout w.store table) (hcovers : d.covers table index = some column)
    {id data : Bytes} (hfits : (Slot.entry table index value id).Fits)
    (hget : w.store.get? ((Slot.entry table index value id).key layout) = some data) :
    ∃ p ∈ listedUnder column value rows, id = Text.encode p.1 ∧ data = Text.encode p.1 := by
  rcases (hindexed index column hcovers id value data hfits).mp hget with ⟨rfl, hencode⟩
  rcases hstored : w.store.get? ((Slot.row table data).key layout) with _ | bytes
  · -- Without a row the value is null, and null is not listed.
    rw [Contents.cell, Contents.rowAt, hstored] at hencode
    exact absurd hencode (by simp [Key.encodeIndexValue])
  · rcases h.mem_of_get? hfits.row_of_entry hstored with ⟨p, hp, rfl, -⟩
    rw [Contents.cell, h.rowAt_eq hp] at hencode
    exact ⟨p, List.mem_filter.mpr ⟨hp, decide_eq_true hencode⟩, rfl, rfl⟩

/-- The entries under a value are those of the listed rows, in the order of the
    rows. -/
theorem Contents.HoldsRows.entries_listed (h : w.store.HoldsRows layout table schema rows)
    (hw : d.Describes layout w.store) (hindexed : d.IndexedIn layout w.store table)
    (hcovers : d.covers table index = some column) (hvalue : Key.fits value = true) :
    (w.store.entries.filter fun e =>
      Bytes.carries (layout.indexPrefix table index ++ Key.encodeComponent value) e.1)
      = (listedUnder column value rows).map (listedEntry layout table index value) := by
  have hdefinition := hw.wellFormed.definition_slot_fits hcovers
  have htable := hdefinition.table_fits
  have hindex : Key.fits (Text.encode index) = true := hdefinition _ (by simp [Slot.components])
  -- Both lists are in the order of their keys, so it is enough that they have the same members.
  refine Ascending.eq_of_mem_iff (w.store.ascending.sublist List.filter_sublist) ?_
    fun e => ⟨fun he => ?_, fun he => ?_⟩
  · rw [Ascending, List.pairwise_map]
    refine (h.ascending.sublist List.filter_sublist).imp fun {p q} hlt => ?_
    rw [listedEntry, listedEntry, ← Slot.entryKey_eq, ← Slot.entryKey_eq]
    exact Bytes.append_lt_append_iff.mpr hlt
  · rcases e with ⟨key, data⟩
    rcases List.mem_filter.mp he with ⟨hmem, hcarries⟩
    have hget := Contents.mem_entries.mp hmem
    have hroot := KeyLayout.carries_root_of_indexPrefix (Bytes.carries_of_append hcarries)
    rcases hw.binds _ _ hget hroot with ⟨slot, hfits, rfl, -⟩
    rcases (Slot.carries_valuePrefix hfits htable hindex hvalue).mp hcarries with ⟨id, rfl⟩
    rcases h.mem_listed hindexed hcovers hfits hget with ⟨p, hp, rfl, rfl⟩
    exact List.mem_map_of_mem hp
  · rcases List.mem_map.mp he with ⟨p, hp, rfl⟩
    rcases List.mem_filter.mp hp with ⟨hmem, hencode⟩
    have hfits : (Slot.entry table index value (Text.encode p.1)).Fits := by
      simp only [Slot.Fits, Slot.components, List.forall_mem_cons]
      exact ⟨htable, hindex, hvalue, (h.filed p hmem).fits _ (by simp [Slot.components]),
        fun c hc => absurd hc (by simp)⟩
    refine List.mem_filter.mpr ⟨Contents.mem_entries.mpr ?_, ?_⟩
    · refine (hindexed index column hcovers _ value _ hfits).mpr ⟨rfl, ?_⟩
      rw [Contents.cell, h.rowAt_eq hmem]
      exact of_decide_eq_true hencode
    · exact (Slot.carries_valuePrefix hfits htable hindex hvalue).mpr ⟨_, rfl⟩

theorem Index.idsOf_listed (listed : List (String × Row)) :
    idsOf (listed.map (listedEntry layout table index value)) = .ok (listed.map Prod.fst) := by
  induction listed with
  | nil => rfl
  | cons p listed ih =>
    rw [List.map_cons, listedEntry, idsOf]
    simp only [Text.decode?_encode, ih, ok_bind, List.map_cons]

/-- An index has a place for a value, which null does not need. -/
def KeyLayout.Places (layout : KeyLayout) (table index : String) (v : Value) : Prop :=
  v.isNull = false → ∃ start, layout.indexValuePrefix table index v = .ok start

/-- Where an index lists the rows with a value, unless a limit is hit. -/
theorem KeyLayout.indexValuePrefix_cases (hfits : (Slot.definition table index).Fits) {v : Value}
    (hv : v.isNull = false) :
    (∃ fault, layout.indexValuePrefix table index v = .error fault ∧ fault.IsLimit)
      ∨ ∃ value, Key.encodeIndexValue v = .ok value ∧ Key.fits value = true
        ∧ layout.indexValuePrefix table index v
          = .ok (layout.indexPrefix table index ++ Key.encodeComponent value) := by
  -- A value that is there has an encoding unless a limit is passed.
  rcases hencode : Key.encodeIndexValue v with fault | value
  · have hpre : layout.indexPrefix? table index = .ok (layout.indexPrefix table index) :=
      Key.ofComponents_fit hfits _
    rw [indexValuePrefix, hpre, ok_bind, hencode]
    rcases Key.encodeIndexValue_error hencode with hnull | hlimit
    · rw [hv] at hnull
      exact absurd hnull Bool.false_ne_true
    · exact Or.inl ⟨fault, rfl, Or.inl hlimit⟩
  · rw [indexValuePrefix_encoded hencode]
    rcases hkey : Key.ofComponents [Text.encode table, Text.encode index, value]
        (layout.indexPrefix table index ++ Key.encodeComponent value) with fault | start
    · exact Or.inl ⟨fault, rfl, Or.inr (Key.ofComponents_error hkey)⟩
    · rcases Key.ofComponents_ok hkey with ⟨rfl, hvalue⟩
      exact Or.inr ⟨value, rfl, hvalue value (by simp), rfl⟩

theorem Index.looks_rowIds_error {v : Value} (hv : v.isNull = false) {fault : Fault}
    (h : layout.indexValuePrefix table index v = .error fault) (w : World) :
    (rowIds layout table index v).Looks w (.error fault) := by
  rw [rowIds, if_neg (by rw [hv]; exact Bool.false_ne_true), h]
  exact looks_fail fault w

/-- The ids that an index lists for a value are those of the rows with the
    bytes of the value, in the order of the rows. -/
theorem Index.looks_rowIds (h : w.store.HoldsRows layout table schema rows)
    (hw : d.Describes layout w.store) (hindexed : d.IndexedIn layout w.store table)
    (hcovers : d.covers table index = some column) {v : Value} (hv : v.isNull = false)
    (hvalue : Key.fits value = true) (hstart : layout.indexValuePrefix table index v
      = .ok (layout.indexPrefix table index ++ Key.encodeComponent value)) :
    (rowIds layout table index v).Looks w
      (.ok ((listedUnder column value rows).map Prod.fst)) := by
  have hentries := looks_entries (layout.indexPrefix table index ++ Key.encodeComponent value) w
  rw [h.entries_listed hw hindexed hcovers hvalue] at hentries
  rw [rowIds, if_neg (by rw [hv]; exact Bool.false_ne_true), hstart]
  refine hentries.run_bind.trans ?_
  rw [idsOf_listed]
  rfl

end

/-- What a plan returns: the rows that satisfy the conditions among all rows
    except some on which a condition fails, unless a limit is hit. -/
def Finds (conditions : List Condition) (rows : List (String × Row))
    (r : Except Fault (List (Value × Row))) : Prop :=
  (∃ fault, r = .error fault ∧ fault.IsLimit)
    ∨ ∃ keep, SkipsRefuted conditions rows keep
      ∧ r = (matchesOf conditions (rows.filter keep)).map (List.map asFound)

namespace Finds

variable {conditions : List Condition} {rows : List (String × Row)}
  {r r' : Except Fault (List (Value × Row))}

theorem all (conditions : List Condition) (rows : List (String × Row)) :
    Finds conditions rows ((matchesOf conditions rows).map (List.map asFound)) := by
  refine Or.inr ⟨fun _ => true, fun p _ h => absurd h.symm Bool.false_ne_true, ?_⟩
  rw [List.filter_true]

/-- What is found are the rows that satisfy the conditions. -/
theorem eq_filter (h : Finds conditions rows r) {found : List (Value × Row)} (hr : r = .ok found) :
    found = (rows.filter (isMatch conditions)).map asFound := by
  rcases h with ⟨fault, herror, -⟩ | ⟨keep, hkeep, hmatches⟩
  · rw [herror] at hr
    exact absurd hr (by simp)
  · rw [hmatches] at hr
    rcases exists_of_map_eq_ok hr with ⟨part, hpart, rfl⟩
    rw [eq_filter_of_matchesOf hpart, hkeep.filter_filter]

/-- What is found is some of the rows. -/
theorem exists_sublist (h : Finds conditions rows r) {found : List (Value × Row)}
    (hr : r = .ok found) :
    ∃ part : List (String × Row), part.Sublist rows ∧ found = part.map asFound :=
  ⟨_, List.filter_sublist, h.eq_filter hr⟩

/-- Why nothing is found. -/
theorem error (h : Finds conditions rows r) {fault : Fault} (hr : r = .error fault) :
    fault.IsLimit ∨ fault.IsUnknownOperator := by
  rcases h with ⟨other, herror, hlimit⟩ | ⟨keep, -, hmatches⟩
  · rw [herror] at hr
    exact Or.inl (Except.error.inj hr ▸ hlimit)
  · rw [hmatches] at hr
    rcases hfound : matchesOf conditions (rows.filter keep) with e | found
    · rw [hfound] at hr
      exact Except.error.inj hr ▸ matchesOf_error hfound
    · rw [hfound] at hr
      exact absurd hr (by simp)

/-- Two plans that find rows find the same. -/
theorem agree (h : Finds conditions rows r) (h' : Finds conditions rows r')
    {found found' : List (Value × Row)} (hr : r = .ok found) (hr' : r' = .ok found') :
    found = found' :=
  (h.eq_filter hr).trans (h'.eq_filter hr').symm

/-- If the full scan finds rows, every plan does, unless a limit is hit. -/
theorem of_all (h : Finds conditions rows r) {found : List (Value × Row)}
    (hall : (matchesOf conditions rows).map (List.map asFound) = .ok found) :
    (∃ fault, r = .error fault ∧ fault.IsLimit) ∨ r = .ok found := by
  rcases hr : r with fault | found'
  · rcases h with ⟨other, herror, hlimit⟩ | ⟨keep, -, hmatches⟩
    · exact Or.inl ⟨other, hr.symm.trans herror, hlimit⟩
    · rcases exists_of_map_eq_ok hall with ⟨part, hpart, -⟩
      rcases matchesOf_filter keep hpart with ⟨kept, hkept⟩
      rw [hmatches, hkept] at hr
      exact absurd hr (by simp)
  · rw [h.agree (all conditions rows) hr hall]
    exact Or.inr rfl

end Finds

/-- A way of finding rows among those of a table: all are looked at except some
    on which a condition fails, unless a limit is hit whatever the rows are. -/
def Searches (conditions : List Condition)
    (search : List (String × Row) → Except Fault (List (Value × Row))) : Prop :=
  (∃ fault : Fault, fault.IsLimit ∧ ∀ rows, search rows = .error fault)
    ∨ ∃ keep, ∀ rows, SkipsRefuted conditions rows keep
      ∧ search rows = (matchesOf conditions (rows.filter keep)).map (List.map asFound)

namespace Searches

variable {conditions : List Condition} {rows : List (String × Row)}
  {search : List (String × Row) → Except Fault (List (Value × Row))}

/-- The full scan looks at all rows. -/
theorem all (conditions : List Condition) :
    Searches conditions fun rows => (matchesOf conditions rows).map (List.map asFound) := by
  refine Or.inr ⟨fun _ => true, fun rows => ⟨fun p _ h => absurd h.symm Bool.false_ne_true, ?_⟩⟩
  rw [List.filter_true]

theorem finds (h : Searches conditions search) (rows : List (String × Row)) :
    Finds conditions rows (search rows) :=
  h.imp (fun ⟨fault, hlimit, herror⟩ => ⟨fault, herror rows, hlimit⟩)
    fun ⟨keep, hkeep⟩ => ⟨keep, hkeep rows⟩

/-- Once the rows that are found are gone, no more are. -/
theorem rest (h : Searches conditions search) {found : List (Value × Row)}
    (hfound : search rows = .ok found) :
    search (rows.filter fun p => !isMatch conditions p) = .ok [] := by
  rcases h with ⟨fault, -, herror⟩ | ⟨keep, hkeep⟩
  · exact absurd ((herror rows).symm.trans hfound) (by simp)
  · rw [(hkeep rows).2] at hfound
    rcases exists_of_map_eq_ok hfound with ⟨part, hpart, -⟩
    -- What is looked at now was looked at before, and did not match.
    have hnone := matchesOf_rest hpart
    rw [List.filter_filter] at hnone
    simp only [Bool.and_comm] at hnone
    rw [(hkeep _).2, List.filter_filter, hnone]
    rfl

end Searches

/-- A row that is not listed under the value of a condition fails it. -/
theorem skipsRefuted_listedUnder {conditions : List Condition} {condition : Condition}
    (hmem : condition ∈ conditions) (hequal : condition.operator = .equal) {value : Bytes}
    (hencode : Key.encodeIndexValue condition.value = .ok value) (rows : List (String × Row)) :
    SkipsRefuted conditions rows fun p =>
      decide (Key.encodeIndexValue (Row.value p.2 condition.column) = .ok value) := by
  intro p _ hleft
  refine ⟨condition, hmem, ?_⟩
  rw [hequal, ComparisonOperator.holds, Except.ok.injEq, ← Bool.not_eq_true]
  -- Equal values have the same bytes in an index, so the row would be listed.
  intro hequals
  rw [← hencode] at hleft
  exact of_decide_eq_false hleft (Key.encodeIndexValue_of_equals hequals)

theorem Plan.indexOf?_stored {indexes : List IndexDefinition} {column : String} {name : Json}
    (h : indexOf? (indexes.map IndexDefinition.stored) column = some name) :
    ∃ index ∈ indexes, index.column = column ∧ name = .string index.name := by
  rw [indexOf?] at h
  split at h
  · rename_i stored hfind
    rcases List.mem_map.mp (List.mem_of_find?_eq_some hfind) with ⟨index, hindex, rfl⟩
    have hcolumn := List.find?_some hfind
    refine ⟨index, hindex, Json.string.inj (of_decide_eq_true hcolumn), ?_⟩
    exact (Option.some.inj h).symm
  · exact absurd h (by simp)

/-- A plan through an index is for a condition that asks for a value of the
    column that the index covers. -/
theorem Plan.choose_stored {indexes : List IndexDefinition} (conditions : List Condition) :
    choose (indexes.map IndexDefinition.stored) conditions = .fullScan
      ∨ ∃ index ∈ indexes, ∃ condition ∈ conditions, condition.operator = .equal
        ∧ condition.value.isNull = false ∧ index.column = condition.column
        ∧ choose (indexes.map IndexDefinition.stored) conditions
          = .indexed (.string index.name) condition.column condition.value := by
  induction conditions with
  | nil => exact Or.inl rfl
  | cons condition conditions ih =>
    -- A condition that no index serves leaves the choice to those after it.
    have hrest : choose (indexes.map IndexDefinition.stored) (condition :: conditions)
        = choose (indexes.map IndexDefinition.stored) conditions →
        choose (indexes.map IndexDefinition.stored) (condition :: conditions) = .fullScan
          ∨ ∃ index ∈ indexes, ∃ other ∈ condition :: conditions, other.operator = .equal
            ∧ other.value.isNull = false ∧ index.column = other.column
            ∧ choose (indexes.map IndexDefinition.stored) (condition :: conditions)
              = .indexed (.string index.name) other.column other.value := by
      intro heq
      rw [heq]
      rcases ih with hscan | ⟨index, hindex, other, hother, hplan⟩
      · exact Or.inl hscan
      · exact Or.inr ⟨index, hindex, other, List.mem_cons_of_mem _ hother, hplan⟩
    by_cases hasks : (condition.operator = .equal && !condition.value.isNull) = true
    · rcases hindex : indexOf? (indexes.map IndexDefinition.stored) condition.column with _ | name
      · exact hrest (by rw [choose, if_pos hasks, hindex])
      · rcases indexOf?_stored hindex with ⟨index, hmem, hcolumn, rfl⟩
        simp only [Bool.and_eq_true, decide_eq_true_eq, Bool.not_eq_true'] at hasks
        refine Or.inr ⟨index, hmem, condition, List.mem_cons_self, hasks.1, hasks.2, hcolumn, ?_⟩
        rw [choose, if_pos (by simp [hasks.1, hasks.2]), hindex]
    · exact hrest (by rw [choose, if_neg hasks])

namespace Engine

variable {engine : Engine} {schema : TableSchema} {rows : List (String × Row)}
  {conditions : List Condition}

theorem haveNames_stored (indexes : List IndexDefinition) :
    StoredIndex.haveNames (indexes.map IndexDefinition.stored) = true := by
  rw [StoredIndex.haveNames, List.all_map, List.all_eq_true]
  exact fun index _ => rfl

/-- The plan that is made. It is the same in every store that holds what the
    description says. -/
theorem exists_plan (hw : d.Describes engine.layout w.store)
    (hname : Key.fits (Text.encode table) = true) (conditions : List Condition) :
    ∃ plan, (∀ v : World, d.Describes engine.layout v.store →
        (engine.plan table conditions).Looks v (.ok plan))
      ∧ (plan = .fullScan ∨ ∃ index condition, condition ∈ conditions
        ∧ condition.operator = .equal ∧ condition.value.isNull = false
        ∧ d.covers table index = some condition.column
        ∧ plan = .indexed (.string index) condition.column condition.value) := by
  rw [plan]
  split
  · exact ⟨.fullScan, fun v _ => looks_pure _ v, Or.inl rfl⟩
  · rcases Catalog.exists_indexes hw hname with ⟨indexes, hlists, hlooks⟩
    refine ⟨Plan.choose (indexes.map IndexDefinition.stored) conditions,
      fun v hv => (hlooks v hv).run_bind.trans ?_, ?_⟩
    · rw [if_pos (haveNames_stored indexes)]
      rfl
    · rcases @Plan.choose_stored indexes conditions with
        hscan | ⟨index, hindex, condition, hmem, hequal, hnull, hcolumn, hplan⟩
      · exact Or.inl hscan
      · refine Or.inr ⟨index.name, condition, hmem, hequal, hnull, ?_, hplan⟩
        rw [hlists.covers index hindex, hcolumn]

/-- A listed row is looked at. -/
theorem looks_fetchMatching (h : w.store.HoldsRows engine.layout table schema rows)
    (conditions : List Condition) {p : String × Row} (hp : p ∈ rows) :
    (engine.fetchMatching table conditions p.1).Looks w
      ((satisfies p.2 conditions).map fun matched => if matched then some (asFound p) else none) := by
  have hfiled := h.filed p hp
  have hfetch := looks_fetch ((Slot.row table (Text.encode p.1)).key engine.layout) w
  rw [h.get?_row hp] at hfetch
  rw [fetchMatching, KeyLayout.rowKey?_fits hfiled.fits]
  refine (looks_lift _ w).run_bind.trans (hfetch.run_bind.trans ?_)
  dsimp only
  rw [hfiled.read]
  refine (looks_lift _ w).run_bind.trans ?_
  cases satisfies p.2 conditions <;> rfl

/-- The listed rows are looked at one after the other. -/
theorem looks_fetchAll (h : w.store.HoldsRows engine.layout table schema rows)
    (conditions : List Condition) {part : List (String × Row)} (hpart : ∀ p ∈ part, p ∈ rows) :
    ∃ r, (mapList (engine.fetchMatching table conditions) (part.map Prod.fst)).Looks w r
      ∧ r.map (List.filterMap id) = (matchesOf conditions part).map (List.map asFound) := by
  induction part with
  | nil => exact ⟨.ok [], looks_pure _ w, rfl⟩
  | cons p part ih =>
    rcases ih fun q hq => hpart q (List.mem_cons_of_mem p hq) with ⟨r, hrest, hr⟩
    have hfirst := looks_fetchMatching h conditions (hpart p List.mem_cons_self)
    refine ⟨_, hfirst.bind fun b _ => hrest.bind fun bs _ => looks_pure _ w, ?_⟩
    rw [matchesOf]
    -- A row that does not match is fetched as nothing, which is left out in the end.
    rcases satisfies p.2 conditions with fault | matched
    · rfl
    · rw [ok_bind]
      cases r <;> cases hothers : matchesOf conditions part <;> rw [hothers] at hr <;>
        simp only [Except.map, Except.ok.injEq, Except.error.injEq, reduceCtorEq] at hr
      · rw [hr]
        rfl
      · cases matched
        · simp only [Except.map, ok_bind, Except.ok.injEq]
          exact hr
        · simp only [Except.map, ok_bind, Except.ok.injEq]
          exact congrArg (asFound p :: ·) hr

/-- The rows that a full scan finds. -/
theorem looks_fullScan (hname : Key.fits (Text.encode table) = true)
    (h : w.store.HoldsRows engine.layout table schema rows) {conditions : List Condition}
    (hplan : (engine.plan table conditions).Looks w (.ok .fullScan)) :
    (engine.findRows table conditions).Looks w
      ((matchesOf conditions rows).map (List.map asFound)) := by
  have hentries := looks_entries (engine.layout.rowPrefix table) w
  rw [h.scan] at hentries
  refine hplan.run_bind.trans ?_
  dsimp only
  rw [KeyLayout.rowPrefix?_fits hname]
  refine (looks_lift _ w).run_bind.trans (hentries.run_bind.trans ?_)
  rw [matchingRows_rowEntry h.filed]
  exact looks_lift _ w

/-- The rows that a plan through an index finds. -/
theorem looks_listed (hw : d.Describes engine.layout w.store)
    (hindexed : d.IndexedIn engine.layout w.store table)
    (h : w.store.HoldsRows engine.layout table schema rows) {index column : String} {v : Value}
    (hcovers : d.covers table index = some column) (hv : v.isNull = false) {value : Bytes}
    (hvalue : Key.fits value = true) (hstart : engine.layout.indexValuePrefix table index v
      = .ok (engine.layout.indexPrefix table index ++ Key.encodeComponent value))
    (hplan : (engine.plan table conditions).Looks w (.ok (.indexed (.string index) column v))) :
    (engine.findRows table conditions).Looks w
      ((matchesOf conditions (listedUnder column value rows)).map (List.map asFound)) := by
  have htext : (Json.string index).requireText = .ok index := rfl
  have hlisted : ∀ p ∈ listedUnder column value rows, p ∈ rows :=
    fun p hp => (List.mem_filter.mp hp).1
  rcases looks_fetchAll h conditions hlisted with ⟨r, hfetch, hr⟩
  refine hplan.run_bind.trans ?_
  dsimp only
  rw [htext]
  refine (Index.looks_rowIds h hw hindexed hcovers hv hvalue hstart).run_bind.trans ?_
  exact (hfetch.map _).trans (congrArg (Prod.mk · w) hr)

/-- Rows are found in the same way in every store that holds what the description
    says. -/
theorem exists_search (hw : d.Describes engine.layout w.store)
    (hname : Key.fits (Text.encode table) = true) (conditions : List Condition) :
    ∃ search, Searches conditions search ∧ ∀ (v : World) schema rows,
      d.Describes engine.layout v.store → d.IndexedIn engine.layout v.store table →
      v.store.HoldsRows engine.layout table schema rows →
      (engine.findRows table conditions).Looks v (search rows) := by
  rcases exists_plan hw hname conditions with ⟨plan, hplan, hchosen⟩
  rcases hchosen with rfl | ⟨index, condition, hmem, hequal, hnull, hcovers, rfl⟩
  · exact ⟨_, Searches.all conditions, fun v _ _ hv _ h => looks_fullScan hname h (hplan v hv)⟩
  · have htext : (Json.string index).requireText = .ok index := rfl
    rcases KeyLayout.indexValuePrefix_cases (hw.wellFormed.definition_slot_fits hcovers) hnull with
      ⟨fault, herror, hlimit⟩ | ⟨value, hencode, hvalue, hstart⟩
    · refine ⟨fun _ => .error fault, Or.inl ⟨fault, hlimit, fun _ => rfl⟩, fun v _ _ hv _ _ => ?_⟩
      refine (hplan v hv).run_bind.trans ?_
      dsimp only
      rw [htext]
      exact (Index.looks_rowIds_error hnull herror v).run_bind_error
    · exact ⟨_, Or.inr ⟨_, fun rows => ⟨skipsRefuted_listedUnder hmem hequal hencode rows, rfl⟩⟩,
        fun v _ _ hv hindexed h => looks_listed hv hindexed h hcovers hnull hvalue hstart (hplan v hv)⟩

/-- The rows that satisfy conditions are found, if these can be evaluated and every
    index has a place for what they ask it for. -/
theorem looks_findRows_placed (hw : d.Describes engine.layout w.store)
    (hindexed : d.IndexedIn engine.layout w.store table)
    (hname : Key.fits (Text.encode table) = true)
    (h : w.store.HoldsRows engine.layout table schema rows)
    (hplaced : ∀ condition ∈ conditions, condition.operator = .equal → ∀ index,
      d.covers table index = some condition.column →
      engine.layout.Places table index condition.value)
    {found : List (String × Row)} (hfound : matchesOf conditions rows = .ok found) :
    (engine.findRows table conditions).Looks w
      (.ok ((rows.filter (isMatch conditions)).map asFound)) := by
  rcases exists_plan hw hname conditions with ⟨plan, hplan, hchosen⟩
  rcases hchosen with rfl | ⟨index, condition, hmem, hequal, hnull, hcovers, rfl⟩
  · have hlooks := looks_fullScan hname h (hplan w hw)
    rw [hfound, eq_filter_of_matchesOf hfound] at hlooks
    exact hlooks
  · rcases hplaced condition hmem hequal index hcovers hnull with ⟨start, hstart⟩
    rcases KeyLayout.indexValuePrefix_cases (hw.wellFormed.definition_slot_fits hcovers) hnull with
      ⟨fault, herror, -⟩ | ⟨value, hencode, hvalue, hprefix⟩
    · rw [hstart] at herror
      exact absurd herror (by simp)
    · -- The rows that are not listed would not have been found.
      have hlooks := looks_listed hw hindexed h hcovers hnull hvalue hprefix (hplan w hw)
      rcases matchesOf_filter _ hfound with ⟨part, hpart⟩
      rw [listedUnder, hpart, eq_filter_of_matchesOf hpart,
        (skipsRefuted_listedUnder hmem hequal hencode rows).filter_filter] at hlooks
      exact hlooks

/-- The rows that are found. -/
theorem looks_findRows (hw : d.Describes engine.layout w.store)
    (hindexed : d.IndexedIn engine.layout w.store table)
    (hname : Key.fits (Text.encode table) = true)
    (h : w.store.HoldsRows engine.layout table schema rows) (conditions : List Condition) :
    ∃ r, (engine.findRows table conditions).Looks w r ∧ Finds conditions rows r := by
  rcases exists_search hw hname conditions with ⟨search, hsearch, hlooks⟩
  exact ⟨search rows, hlooks w schema rows hw hindexed h, hsearch.finds rows⟩

/-- The rows that are found without the use of indexes. -/
theorem looks_findRows_plain (hname : Key.fits (Text.encode table) = true)
    (h : w.store.HoldsRows engine.layout table schema rows) (huse : engine.useIndexes = false)
    (conditions : List Condition) : (engine.findRows table conditions).Looks w
      ((matchesOf conditions rows).map (List.map asFound)) := by
  refine looks_fullScan hname h ?_
  rw [plan, huse]
  exact looks_pure _ w

/-- All rows are found. -/
theorem looks_allRows (hname : Key.fits (Text.encode table) = true)
    (h : w.store.HoldsRows engine.layout table schema rows) :
    (engine.allRows table).Looks w (.ok (rows.map asFound)) := by
  have hentries := looks_entries (engine.layout.rowPrefix table) w
  rw [h.scan] at hentries
  rw [allRows, KeyLayout.rowPrefix?_fits hname]
  refine (looks_lift _ w).run_bind.trans (hentries.run_bind.trans ?_)
  rw [matchingRows_rowEntry h.filed, matchesOf_nil]
  rfl

end Engine

end TableStore
