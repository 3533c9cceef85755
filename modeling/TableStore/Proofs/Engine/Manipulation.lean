import TableStore.Engine.Manipulation
import TableStore.Proofs.Engine.Entries
import TableStore.Proofs.Engine.RowShape
import TableStore.Proofs.Statement

/-!
# Changing Rows

An insertion, an update and a removal write rows and entries of their own table
and nothing else. What they write is known in advance: a row that is put
together from supplied values and defaults, or a row that assignments leave of
one that was found. The dialogues are gone through once, for all disciplines,
and each write is looked at where it is made. What a discipline makes of such
rows is left to it, and so is what it knows about the rows that are found.

This holds for every run, whatever the indexes hold and wherever the run ends.

## Main definitions

* `Statement.Writes`: A row that a statement writes.
* `Statement.WritesWithin`: Statements whose rows may be written.

## Theorems

* `Statement.writesWithin_changes`: The rows that are written have the shape that
  their table asks for.
* `Engine.obeys_insert`, `obeys_update`, `obeys_delete`: The changes.
* `Engine.obeys_select`: A query changes nothing.
-/

namespace TableStore

open Access

variable {d : Description} {layout : KeyLayout} {table : String} {dis : Discipline}

/-- Stored indexes of a table that the description lists. -/
def Description.Covered (d : Description) (table : String) (found : List StoredIndex) : Prop :=
  ∀ stored ∈ found, ∃ index column, d.covers table index = some column
    ∧ stored = (IndexDefinition.mk index table column).stored

theorem covered_of_definitions {list : List IndexDefinition}
    (h : ∀ index ∈ list, index.table = table ∧ d.covers table index.name = some index.column
      ∧ (Slot.definition table index.name).Fits) :
    d.Covered table (list.map IndexDefinition.stored) := by
  intro stored hstored
  rcases List.mem_map.mp hstored with ⟨⟨name, owner, column⟩, hindex, rfl⟩
  rcases h _ hindex with ⟨rfl, hcovers, -⟩
  exact ⟨name, column, hcovers, rfl⟩

theorem Catalog.obeys_indexes_covered (h : d.Serves layout table dis) (name : String) :
    (indexes layout name).Obeys dis fun found => d.Covered name found := by
  refine (obeys_indexes h name).imp ?_
  rintro _ ⟨list, rfl, hlist⟩
  exact covered_of_definitions hlist

/-- A row that a statement writes under an id: one that an insertion puts together,
    or what assignments leave of a row that was found. -/
inductive Statement.Writes (layout : KeyLayout) (schema : TableSchema) (dis : Discipline) :
    Statement → Bytes → Row → Prop where
  | insert {table : String} {columns : Option (List String)} {values : List Value}
      {supplied built : Fields Value} {key : Option Value} {id : String}
      (regular : ∀ f ∈ supplied, f.2.IsRegular)
      (build : buildRow supplied [] schema.stored.columns = .ok built)
      (primary : primaryValue? schema.stored built = .ok key)
      (keyed : ∀ v, key = some v → v.toText = id) :
      Writes layout schema dis (insert table columns values) (Text.encode id)
        (Fields.toMembers (built.set (.string rowIdMember) (.text rowIdMember) (.text id)))
  | update {table : String} {assignments : List Assignment} {conditions : List Condition}
      {p : Value × Row} {id : Bytes} {row : Row}
      (check : checkAssignments schema.stored table assignments = .ok ())
      (finds : dis.Finds layout table p)
      (assign : assignRow schema.stored p.2 p.2 assignments = .ok row)
      (filed : RowId.toKey p.1 = .ok id) :
      Writes layout schema dis (update table assignments conditions) id row

/-- A statement whose rows a discipline allows to be written. -/
def Statement.WritesWithin (layout : KeyLayout) (schema : TableSchema) (dis : Discipline)
    (statement : Statement) : Prop :=
  ∀ id row data, statement.Writes layout schema dis id row →
    (Slot.row statement.table id).Fits → row.toBytes = .ok data →
    dis.puts ((Slot.row statement.table id).key layout) data

/-- Every row that a statement writes has the shape that its table asks for. -/
theorem Statement.writesWithin_changes (hwell : d.WellFormed) {statement : Statement}
    (hplain : statement.Plain) {schema : TableSchema} (ht : d.tables statement.table = some schema) :
    statement.WritesWithin layout schema (d.changes layout statement.table) := by
  intro id row data hwrites hfits hdata
  refine ⟨_, hfits, rfl, trivial, rfl, schema, ht, fun hids => ?_⟩
  have hshape := hwell.schema_wellFormed statement.table schema ht
  cases hwrites with
  | insert hregular hbuilt _ _ =>
    rcases hwell.schema_bytes _ schema ht with ⟨bytes, hbytes⟩
    exact ⟨_, _, rfl, accepts_of_buildRow hshape hids hbytes hregular hbuilt _, hdata⟩
  | update _ hfinds hassign hid =>
    rcases Description.files_of_finds (d.changes_serves layout _) hwell hfinds schema ht hids with
      ⟨name, hname, haccepts⟩
    rw [hname] at hid
    exact ⟨name, row, (Except.ok.inj hid).symm,
      accepts_of_assignRow hshape hids hplain haccepts haccepts hassign, hdata⟩

namespace Engine

variable {engine : Engine}

/-- Entries of indexes that are covered may change. -/
theorem changesEntries_covered (h : d.Serves engine.layout table dis) {found : List StoredIndex}
    (hfound : d.Covered table found) {stored : StoredIndex} (hstored : stored ∈ found) (name : String)
    (hname : stored.name.requireText = .ok name) : dis.ChangesEntries engine.layout table name := by
  rcases hfound stored hstored with ⟨index, column, hcovers, rfl⟩
  cases hname
  exact h.changesEntries hcovers

theorem obeys_moveEntries (h : d.Serves engine.layout table dis) {found : List StoredIndex}
    (hfound : d.Covered table found) (old new : Row) (id : Value) :
    (engine.moveEntries table old new id found).Obeys dis fun _ => True := by
  refine obeys_forList fun stored hstored => ?_
  refine (h.outcome fun _ _ => trivial).bind fun before _ => ?_
  refine (h.outcome fun _ _ => trivial).bind fun after _ => ?_
  exact Index.obeys_moveStored h.fails (changesEntries_covered h hfound hstored) before after id

/-- Adding entries needs no description, for what is in the indexes is not looked at. -/
theorem obeys_addEntries (hfails : ∀ fault, dis.fails fault) {found : List StoredIndex}
    (hfound : ∀ stored ∈ found, ∀ name, stored.name.requireText = .ok name →
      dis.ChangesEntries engine.layout table name) (row : Fields Value) (id : String) :
    (engine.addEntries table row id found).Obeys dis fun _ => True := by
  refine obeys_forList fun stored hstored => ?_
  refine (obeys_lift (fun _ _ => trivial) fun fault _ => hfails fault).bind fun v _ => ?_
  exact Index.obeys_moveStored hfails (hfound stored hstored) .null _ (.text id)

theorem obeys_freeId (h : d.Serves engine.layout table dis) (draws : Nat) :
    (engine.freeId table draws).Obeys dis fun _ => True := by
  induction draws with
  | zero => exact obeys_fail (h.fails _)
  | succ draws ih =>
    refine (obeys_drawId table h.fails).bind fun id _ => ?_
    refine (h.outcome fun _ _ => trivial).bind fun key _ => ?_
    refine (obeys_fetch key).bind fun answer _ => ?_
    cases answer with
    | none => exact obeys_pure trivial
    | some data => exact ih

/-- The id of a row with a key is the text of the key. -/
theorem obeys_newRowId (h : d.Serves engine.layout table dis) (key : Option Value) :
    (engine.newRowId table key).Obeys dis fun id => ∀ v, key = some v → v.toText = id := by
  cases key with
  | none =>
    refine obeys_keyCount.bind fun n _ => (obeys_freeId h (n + 1)).imp ?_
    exact fun _ _ v hv => absurd hv (by simp)
  | some v =>
    unfold newRowId
    dsimp only
    split
    · exact obeys_fail (h.fails _)
    · refine (h.outcome fun _ _ => trivial).bind fun key _ => ?_
      refine (obeys_fetch key).bind fun answer _ => ?_
      cases answer with
      | none => exact obeys_pure fun u hu => by rw [Option.some.inj hu]
      | some data => exact obeys_fail (h.fails _)

/-- A new row is put together and written. -/
theorem obeys_fileRow (h : d.Serves engine.layout table dis) (hwell : d.WellFormed)
    {columns : Option (List String)} {values : List Value} (hvalues : ∀ v ∈ values, v.IsDenoted)
    (hputs : ∀ schema, d.tables table = some schema →
      (Statement.insert table columns values).WritesWithin engine.layout schema dis) :
    (engine.fileRow table columns values).Obeys dis fun _ => True := by
  refine (Catalog.obeys_requireSchema h hwell table).bind ?_
  rintro stored ⟨schema, ht, rfl⟩
  dsimp only
  split
  · exact obeys_fail (h.fails _)
  · refine (h.outcome fun supplied hs => hs).bind fun supplied hsupplied => ?_
    refine (h.outcome fun _ _ => trivial).bind fun _ _ => ?_
    refine (h.outcome fun row hr => hr).bind fun built hbuilt => ?_
    refine (h.outcome fun key hk => hk).bind fun key hkey => ?_
    refine (obeys_newRowId h key).bind fun id hid => ?_
    refine (h.outcome fun bytes hb => KeyLayout.rowKey?_ok hb).bind ?_
    rintro _ ⟨rfl, hfits⟩
    refine (h.outcome fun data hd => hd).bind fun data hdata => ?_
    have hregular := Fields.regular_of_ofList (regular_of_zip hvalues) hsupplied
    refine (obeys_store (hputs schema ht _ _ data ?_ hfits hdata)).bind fun _ _ => obeys_pure trivial
    -- The schema says which rows may be written, and this is one of them.
    exact .insert hregular hbuilt hkey hid

/-- An insertion writes rows that it puts together, and besides entries only. -/
theorem obeys_insert (h : d.Serves engine.layout table dis) (hwell : d.WellFormed)
    {columns : Option (List String)} {values : List Value} (hvalues : ∀ v ∈ values, v.IsDenoted)
    (hputs : ∀ schema, d.tables table = some schema →
      (Statement.insert table columns values).WritesWithin engine.layout schema dis) :
    (engine.insert table columns values).Obeys dis fun _ => True := by
  refine (obeys_fileRow h hwell hvalues hputs).bind ?_
  rintro ⟨row, id⟩ _
  refine (Catalog.obeys_indexes_covered h table).bind fun found hfound => ?_
  exact (obeys_addEntries h.fails (fun _ => changesEntries_covered h hfound) _ id).bind
    fun _ _ => obeys_pure trivial

theorem obeys_updateRows (h : d.Serves engine.layout table dis) {schema : TableSchema}
    {assignments : List Assignment} {conditions : List Condition}
    (hcheck : checkAssignments schema.stored table assignments = .ok ())
    (hputs : (Statement.update table assignments conditions).WritesWithin engine.layout schema dis)
    {found : List StoredIndex} (hfound : d.Covered table found) {rows : List (Value × Row)}
    (hrows : ∀ p ∈ rows, dis.Finds engine.layout table p) :
    (engine.updateRows table schema.stored assignments found rows).Obeys dis fun _ => True := by
  induction rows with
  | nil => exact obeys_pure trivial
  | cons p rows ih =>
    rcases p with ⟨id, old⟩
    refine (h.outcome fun row hr => hr).bind fun row hrow => ?_
    refine (obeys_moveEntries h hfound old row id).bind fun _ _ => ?_
    refine (h.outcome fun bytes hb => hb).bind fun bytes hid => ?_
    refine (h.outcome fun key hk => KeyLayout.rowKey?_ok hk).bind ?_
    rintro _ ⟨rfl, hfits⟩
    refine (h.outcome fun data hd => hd).bind fun data hdata => ?_
    refine (obeys_store (hputs _ _ data ?_ hfits hdata)).bind fun _ _ => ?_
    · exact .update hcheck (hrows _ List.mem_cons_self) hrow hid
    · exact (ih fun q hq => hrows q (List.mem_cons_of_mem _ hq)).bind fun _ _ => obeys_pure trivial

theorem Covered.filter {found : List StoredIndex} (h : d.Covered table found)
    (p : StoredIndex → Bool) : d.Covered table (found.filter p) :=
  fun stored hstored => h stored (List.mem_filter.mp hstored).1

theorem concernedIndexes_covered {found concerned : List StoredIndex} {changed : List String}
    (hfound : d.Covered table found) (h : concernedIndexes changed found = .ok concerned) :
    d.Covered table concerned := by
  rw [concernedIndexes] at h
  split at h
  · rw [← Except.ok.inj h]
    exact Covered.filter hfound _
  · exact absurd h (by simp)

theorem requireText_stored (hwell : d.WellFormed) {schema : TableSchema}
    (ht : d.tables table = some schema) : schema.stored.name.requireText = .ok table := by
  rw [TableSchema.stored, Json.requireText, hwell.schema_name table schema ht]

/-- An update writes rows that its assignments leave, and besides entries only. -/
theorem obeys_update (h : d.Serves engine.layout table dis) (hwell : d.WellFormed)
    {assignments : List Assignment} {conditions : List Condition}
    (hputs : ∀ schema, d.tables table = some schema →
      (Statement.update table assignments conditions).WritesWithin engine.layout schema dis) :
    (engine.update table assignments conditions).Obeys dis fun _ => True := by
  refine (Catalog.obeys_requireSchema h hwell table).bind ?_
  rintro stored ⟨schema, ht, rfl⟩
  refine (h.outcome fun _ hc => hc).bind fun _ hcheck => ?_
  refine (h.outcome fun _ _ => trivial).bind fun bound _ => ?_
  refine (Catalog.obeys_indexes_covered h table).bind fun found hfound => ?_
  refine (h.outcome fun _ hc => concernedIndexes_covered hfound hc).bind fun concerned hconcerned => ?_
  rw [requireText_stored hwell ht]
  refine (obeys_findRows h).bind fun rows hrows => ?_
  exact (obeys_updateRows h hcheck (hputs schema ht) hconcerned hrows).bind fun _ _ =>
    obeys_pure trivial

theorem obeys_deleteRows (h : d.Serves engine.layout table dis)
    (hdeletes : ∀ id, (Slot.row table id).Fits →
      dis.deletes ((Slot.row table id).key engine.layout))
    {found : List StoredIndex} (hfound : d.Covered table found) (rows : List (Value × Row)) :
    (engine.deleteRows table found rows).Obeys dis fun _ => True := by
  induction rows with
  | nil => exact obeys_pure trivial
  | cons p rows ih =>
    rcases p with ⟨id, row⟩
    refine (obeys_moveEntries h hfound row [] id).bind fun _ _ => ?_
    refine (h.outcome fun _ _ => trivial).bind fun bytes _ => ?_
    refine (h.outcome fun key hk => KeyLayout.rowKey?_ok hk).bind ?_
    rintro _ ⟨rfl, hfits⟩
    refine (obeys_remove (hdeletes bytes hfits)).bind fun _ _ => ?_
    exact ih.bind fun _ _ => obeys_pure trivial

/-- A removal removes rows and changes entries. -/
theorem obeys_delete (h : d.Serves engine.layout table dis) (hwell : d.WellFormed)
    (hdeletes : ∀ id, (Slot.row table id).Fits →
      dis.deletes ((Slot.row table id).key engine.layout)) {conditions : List Condition} :
    (engine.delete table conditions).Obeys dis fun _ => True := by
  refine (Catalog.obeys_requireSchema h hwell table).bind ?_
  rintro stored ⟨schema, ht, rfl⟩
  refine (h.outcome fun _ _ => trivial).bind fun bound _ => ?_
  refine (Catalog.obeys_indexes_covered h table).bind fun found hfound => ?_
  rw [requireText_stored hwell ht]
  refine (obeys_findRows h).bind fun rows _ => ?_
  exact (obeys_deleteRows h hdeletes hfound rows).bind fun _ _ => obeys_pure trivial

/-- A query changes nothing. -/
theorem obeys_select (h : d.Serves engine.layout table dis) (hwell : d.WellFormed)
    {items : List SelectItem} {conditions : List Condition} {order : List OrderItem}
    {limit offset : Option Nat} :
    (engine.select table items conditions order limit offset).Obeys dis fun _ => True := by
  refine (Catalog.obeys_requireSchema h hwell table).bind ?_
  rintro stored ⟨schema, ht, rfl⟩
  refine (h.outcome fun _ _ => trivial).bind fun bound _ => ?_
  rw [requireText_stored hwell ht]
  refine (obeys_findRows h).bind fun rows _ => ?_
  dsimp only
  split
  · exact (h.outcome fun _ _ => trivial).bind fun _ _ => obeys_pure trivial
  · exact obeys_pure trivial

end Engine

end TableStore
