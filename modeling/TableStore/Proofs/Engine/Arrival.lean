import TableStore.Proofs.Engine.NewRows
import TableStore.Proofs.Engine.Query
import Mathlib.Data.List.Sort

/-!
# The Order in Which Rows Come

Rows are stored in the order of their ids, and a source that counts gives out its ids in
that order too. So a table that one executor fills has its rows in the order in which
they have come. For this the numbers only have to rise. They may leave gaps, and
they may outgrow the width that ids are padded to.

The order in which rows come is not recorded anywhere, so it is kept beside the run: after
each text the rows that are gone are taken out, and one that is new is put at the end. A
row that is changed stays where it is, and a row that an insertion has stored before it
failed has come all the same.

Other executors may work on the table as well, as long as they insert nothing into
it. Only insertions draw ids, and no other statement stores a row under an id that no row
had.

## Main definitions

* `IdSource.NextIs`: A source that counts, with the next number of a table.
* `Contents.CountedBelow`: A table whose rows have counted ids.
* `arrivals`: The rows there are, in the order in which they have come.
* `Arrived`: A run in which one executor fills a table.

## Theorems

* `Access.nextIs_run`: Numbers only rise.
* `Engine.executeStatement_arrives`: A new row has a number that was not given before.
* `arrivals_rowKeys`: New rows come after those that were there.
* `Arrived.rows_in_order`: Rows are stored, and found, in the order in which they came.
-/

namespace TableStore

open Access

variable {d : Description} {layout : KeyLayout} {table : String} {schema : TableSchema}
  {c c' : Contents} {w : World} {width first number next : Int}

/-- A source that counts, pads ids to a width, and gives a table a number next. -/
def IdSource.NextIs (source : IdSource) (table : String) (width next : Int) : Prop :=
  ∃ start used, source = counter start width used ∧ (Members.get? used table).getD start = next

/-- A draw for a table moves its number on, and others leave it. -/
theorem IdSource.NextIs.after {source : IdSource} (h : source.NextIs table width first)
    (other : String) :
    ∃ next, first ≤ next ∧ (source.next other).2.NextIs table width next := by
  rcases h with ⟨start, used, rfl, rfl⟩
  refine ⟨_, ?_, start, _, rfl, rfl⟩
  rw [Members.get?_set]
  split
  · rename_i hother
    rw [hother, Option.getD_some]
    omega
  · exact le_rfl

/-- Numbers only rise, whatever is done. -/
theorem Access.nextIs_run {α : Type} (x : Access α) (hw : w.ids.NextIs table width first) :
    ∃ next, first ≤ next ∧ (x.on w).2.ids.NextIs table width next := by
  refine x.ids_run (P := fun ids => ∃ next, first ≤ next ∧ ids.NextIs table width next) ?_
    ⟨first, le_rfl, hw⟩
  rintro ids name ⟨next, hle, hnext⟩
  rcases hnext.after name with ⟨last, hlast, hids⟩
  exact ⟨last, hle.trans hlast, hids⟩

/-- A table that has a row under an id. -/
def Contents.HasRow (c : Contents) (layout : KeyLayout) (table : String) (id : Bytes) : Prop :=
  c.get? ((Slot.row table id).key layout) ≠ none

theorem Contents.hasRow_of_get? {id data : Bytes}
    (h : c.get? ((Slot.row table id).key layout) = some data) : c.HasRow layout table id := by
  rw [HasRow, h]
  simp

/-- The ids of rows that are there, and that of a number from one on and below another. -/
def Contents.HasOrCounts (c : Contents) (layout : KeyLayout) (table : String)
    (width first number next : Int) (id : Bytes) : Prop :=
  c.HasRow layout table id
    ∨ first ≤ number ∧ number < next ∧ id = Text.encode (IdSource.paddedText width number)

namespace Engine

variable {engine : Engine}

/-- Without a key a row is filed under the last number that was drawn for it. -/
theorem fileRow_counts (h : w.store.Declares engine.layout table schema) (hids : schema.KeepsIds)
    (hp : schema.primaryKey = none) {columns : Option (List String)} {values : List Value}
    (hvalues : ∀ v ∈ values, v.IsDenoted) (hnext : w.ids.NextIs table width first)
    {fields : Fields Value} {id : String} {w₁ : World}
    (hfile : (engine.fileRow table columns values).on w = (.ok (fields, id), w₁)) :
    ∃ number row data, first ≤ number ∧ fields = Members.toFields row
      ∧ id = IdSource.paddedText width number ∧ (Slot.row table (Text.encode id)).Fits
      ∧ w₁.ids.NextIs table width (number + 1)
      ∧ w₁.store = w.store.insert ((Slot.row table (Text.encode id)).key engine.layout) data := by
  rcases (fileRow_files h hids hvalues).of_ok hfile with
    ⟨supplied, row, data, -, -, hrow, hfiled, ⟨found, w₂, hfound, hdrawn, hsame⟩, hstore⟩
  dsimp only at hrow hfiled hfound hdrawn hsame hstore
  subst hrow
  have hkeyless : schema.Keyless row := fun key hkey => absurd (hp.symm.trans hkey) (by simp)
  obtain rfl := hkeyless.primaryValue?_eq_none hfound
  rcases w with ⟨store, ids, notes⟩
  rcases hnext with ⟨start, used, rfl, rfl⟩
  rcases @newRowId_counts table store engine hfiled.fits.table_fits start width used notes with
    ⟨taken, outcome, hsearch, -, -, hends⟩
  rw [hsearch, Prod.mk.injEq] at hdrawn
  rcases hdrawn with ⟨rfl, rfl⟩
  -- The search that ends with an id ends at the number of that id.
  have hid : id = IdSource.paddedText width ((Members.get? used table).getD start + taken) := by
    rcases hends with ⟨hid, -⟩ | ⟨hid, -⟩ | ⟨hid, -⟩
    · exact Except.ok.inj hid
    · cases hid
    · cases hid
  rw [hsame _ _ h hsearch] at hfile
  obtain rfl := (Prod.mk.inj hfile).2
  refine ⟨_, row, data, by omega, rfl, hid, hfiled.fits, ⟨start, _, rfl, ?_⟩, hstore⟩
  rw [Members.get?_set, if_pos rfl, Option.getD_some]

/-- The row that an insertion into a table without a key may leave, whatever it ends in, has a
    number that was not given before. -/
theorem insert_arrives (h : w.store.Declares engine.layout table schema) (hids : schema.KeepsIds)
    (hp : schema.primaryKey = none) {columns : Option (List String)} {values : List Value}
    (hvalues : ∀ v ∈ values, v.IsDenoted) (hnext : w.ids.NextIs table width first) :
    ∃ number next, first ≤ next
      ∧ ((engine.insert table columns values).on w).2.ids.NextIs table width next
      ∧ ((engine.insert table columns values).on w).2.store.EveryRow engine.layout table
        fun id _ => w.store.HasOrCounts engine.layout table width first number next id := by
  rcases run_bind_cases (engine.fileRow table columns values) _ w with
    ⟨fault, w₁, hfile, hrun⟩ | ⟨⟨fields, id⟩, w₁, hfile, hrun⟩
  · -- Nothing is stored before the row is.
    rcases nextIs_run (engine.insert table columns values) hnext with ⟨next, hle, hids'⟩
    refine ⟨first, next, hle, hids', fun id data _ hget => Or.inl ?_⟩
    rw [insert, hrun, (fileRow_files h hids hvalues).of_error hfile] at hget
    exact Contents.hasRow_of_get? hget
  rcases fileRow_counts h hids hp hvalues hnext hfile with
    ⟨number, row, data, hle₁, rfl, rfl, hfits₁, hnow, hstore⟩
  let enter : Access QueryResult := do
    let indexes ← Catalog.indexes engine.layout table
    engine.addEntries table (Members.toFields row) (IdSource.paddedText width number) indexes
    pure { affected := 1 }
  rcases nextIs_run enter hnow with ⟨next, hle, hids'⟩
  have henter : w₁.store.SameExcept engine.layout (Slot.IsEntryIn table) (enter.on w₁).2.store :=
    enterRow_sameExcept w₁ (Members.toFields row) _ { affected := 1 }
  rw [insert, hrun]
  refine ⟨number, next, by omega, hids', fun other bytes hfits hget => ?_⟩
  -- Entries are no rows, so a row that is found was there before, or is the one that was filed.
  have hname := hfits.table_fits
  have hbefore : w₁.store.get? ((Slot.row table other).key engine.layout) = some bytes :=
    (henter.get?_rowPrefix hname
      ((Slot.carries_rowPrefix hfits hname).mpr ⟨_, rfl⟩)).symm.trans hget
  rw [hstore, Contents.get?_insert] at hbefore
  split at hbefore
  · rename_i hkey
    have hslot := Slot.key_injective hfits hfits₁ hkey
    exact Or.inr ⟨hle₁, by omega, (Slot.row.inj hslot).2⟩
  · exact Or.inl (Contents.hasRow_of_get? hbefore)

end Engine

/-- Statements that insert nothing store rows only where rows are. -/
theorem Statement.writesWithin_present (hwell : d.WellFormed) {statement : Statement}
    (ht : d.tables statement.table = some schema) (hids : schema.KeepsIds)
    (hinsert : ∀ columns values, statement ≠ .insert statement.table columns values) :
    statement.WritesWithin layout schema
      (d.keeping layout statement.table fun id _ => c.HasRow layout statement.table id) := by
  intro id row data hwrites hfits _ other hother hkey
  obtain rfl : id = other := (Slot.row.inj (Slot.key_injective hfits hother hkey)).2
  cases hwrites with
  | insert _ _ _ _ => exact absurd rfl (hinsert _ _)
  | @update table assignments conditions p _ _ _ hfinds _ hfiled =>
    rcases hfinds with ⟨found, bytes, hslot, ⟨hbinds, hpresent⟩, hread, hid⟩
    rcases (hbinds.allows hslot).files hwell hread ht hids with ⟨name, rfl, haccepts⟩
    -- Whether the id comes from the key or from the row, it is the same one.
    have hp : p.1 = .text name := by
      rcases hid with ⟨given, hgiven, heq⟩ | hkept
      · rw [hgiven, Text.encode_injective heq]
      · rw [Engine.idOf, haccepts.filed] at hkept
        exact (Except.ok.inj hkept).symm
    rw [hp] at hfiled
    obtain rfl := Except.ok.inj hfiled
    exact hpresent _ hslot rfl

/-- A text that inserts a row into a table. -/
def insertsInto (table : String) (sql : Option String) : Bool :=
  match Statement.ofText sql with
  | .ok (.insert other _ _) => other == table
  | _ => false

/-- A text that drops a table. -/
def dropsTable (table : String) (sql : Option String) : Bool :=
  match Statement.ofText sql with
  | .ok (.dropTable other _) => other == table
  | _ => false

/-- A table that is not dropped stays what it is. -/
theorem Tables.afterText_of_declared {tables : Tables} (ht : tables table = some schema)
    {sql : Option String} (hdrop : dropsTable table sql = false) (r : Except Fault QueryResult) :
    tables.afterText sql r table = some schema := by
  rw [afterText]
  rcases hread : Statement.ofText sql with fault | statement
  · exact ht
  dsimp only
  rcases r with fault | result
  · rw [Tables.after_error, ht]
  cases statement with
  | createTable other columns primaryKey ifNotExists =>
    -- A table that is declared is not declared again.
    refine (if_neg ?_).trans ht
    rintro ⟨rfl, hnone⟩
    rw [ht] at hnone
    exact absurd hnone (by simp)
  | dropTable other ifExists =>
    -- The table that the text drops is another one.
    refine (if_neg ?_).trans ht
    rintro rfl
    rw [dropsTable, hread] at hdrop
    exact absurd hdrop (by simp)
  | _ => exact ht

namespace Engine

variable {engine : Engine}

/-- What does not insert rows into a table leaves it no row that was not there. -/
theorem executeStatement_present (hd : d.Describes engine.layout w.store)
    (ht : d.tables table = some schema) (hids : schema.KeepsIds) {statement : Statement}
    (hplain : statement.Plain)
    (hinsert : ∀ columns values, statement ≠ .insert table columns values) :
    ((engine.executeStatement statement).on w).2.store.EveryRow engine.layout table
      fun id _ => w.store.HasRow engine.layout table id := by
  refine executeStatement_everyRow hd hplain (fun _ _ _ hget => Contents.hasRow_of_get? hget)
    fun htable declared hdeclared => ?_
  obtain rfl := Option.some.inj (hdeclared.symm.trans ht)
  subst htable
  exact Statement.writesWithin_present hd.wellFormed ht hids hinsert

/-- A row that a statement leaves in a table without a key was there, or it has a number that
    was not given before. -/
theorem executeStatement_arrives (hd : d.Describes engine.layout w.store)
    (ht : d.tables table = some schema) (hids : schema.KeepsIds) (hp : schema.primaryKey = none)
    {statement : Statement} (hplain : statement.Plain) (hnext : w.ids.NextIs table width first) :
    ∃ number next, first ≤ next
      ∧ ((engine.executeStatement statement).on w).2.ids.NextIs table width next
      ∧ ((engine.executeStatement statement).on w).2.store.EveryRow engine.layout table
        fun id _ => w.store.HasOrCounts engine.layout table width first number next id := by
  by_cases hinsert : ∃ columns values, statement = .insert table columns values
  · rcases hinsert with ⟨columns, values, rfl⟩
    rw [executeStatement]
    exact insert_arrives (hd.declares ht) hids hp hplain hnext
  · rcases nextIs_run (engine.executeStatement statement) hnext with ⟨next, hle, hids'⟩
    have hpresent := executeStatement_present hd ht hids hplain fun columns values heq =>
      hinsert ⟨columns, values, heq⟩
    exact ⟨first, next, hle, hids', fun id data hfits hget => Or.inl (hpresent id data hfits hget)⟩

end Engine

/-- A table whose rows have ids of numbers that are not below zero but below another. -/
def Contents.CountedBelow (c : Contents) (layout : KeyLayout) (table : String) (width next : Int) :
    Prop :=
  c.EveryRow layout table fun id _ =>
    ∃ n, 0 ≤ n ∧ n < next ∧ id = Text.encode (IdSource.paddedText width n)

/-- The keys of the rows of a table, as they are stored. -/
def Memory.rowKeys (m : Memory) (layout : KeyLayout) (table : String) : List Bytes :=
  (m.under (layout.rowPrefix table)).map Prod.fst

/-- Keys in the order in which they have come: those that were there and still are, as before,
    and then the one that is new. -/
def arrivals (before now : List Bytes) : List Bytes :=
  before.filter (· ∈ now) ++ (now.find? (· ∉ before)).toList

variable {m m' : Memory}

/-- The keys of rows are those of places. -/
theorem Memory.mem_rowKeys (hm : m.entries = c.entries) (hd : d.Describes layout c)
    (hname : Key.fits (Text.encode table) = true) {key : Bytes} :
    key ∈ m.rowKeys layout table
      ↔ ∃ id, (Slot.row table id).Fits ∧ c.HasRow layout table id
        ∧ key = (Slot.row table id).key layout := by
  rw [rowKeys, under, hm]
  constructor
  · intro hkey
    rcases List.mem_map.mp hkey with ⟨⟨_, data⟩, he, rfl⟩
    rcases List.mem_filter.mp he with ⟨hmem, hcarries⟩
    have hget := Contents.mem_entries.mp hmem
    rcases exists_row_slot hname hcarries (hd.binds _ _ hget) with ⟨id, hfits, rfl, -⟩
    exact ⟨id, hfits, Contents.hasRow_of_get? hget, rfl⟩
  · rintro ⟨id, hfits, hrow, rfl⟩
    rcases Option.ne_none_iff_exists'.mp hrow with ⟨data, hget⟩
    refine List.mem_map.mpr ⟨_, List.mem_filter.mpr ⟨Contents.mem_entries.mpr hget, ?_⟩, rfl⟩
    exact (Slot.carries_rowPrefix hfits hname).mpr ⟨id, rfl⟩

/-- Rows are stored in the order of their keys. -/
theorem Memory.pairwise_rowKeys (hm : m.entries = c.entries) :
    (m.rowKeys layout table).Pairwise (· < ·) := by
  rw [rowKeys, under, hm, List.pairwise_map]
  exact c.ascending.sublist List.filter_sublist

/-- A new row comes after those that were there, in the store too, if the ids of those were counted
    before. -/
theorem arrivals_rowKeys (hm : m.entries = c.entries) (hd : d.Describes layout c)
    (hm' : m'.entries = c'.entries) {d' : Description} (hd' : d'.Describes layout c')
    (hname : Key.fits (Text.encode table) = true) (hbelow : c.CountedBelow layout table width first)
    (hrows : c'.EveryRow layout table fun id _ =>
      c.HasOrCounts layout table width first number next id) :
    arrivals (m.rowKeys layout table) (m'.rowKeys layout table) = m'.rowKeys layout table := by
  -- There is only one key that can be new.
  have hnew : ∀ key ∈ m'.rowKeys layout table, key ∉ m.rowKeys layout table → first ≤ number
      ∧ ∃ id, (Slot.row table id).Fits ∧ id = Text.encode (IdSource.paddedText width number)
        ∧ key = (Slot.row table id).key layout := by
    intro key hkey hnew
    rcases (Memory.mem_rowKeys hm' hd' hname).mp hkey with ⟨id, hfits, hrow, rfl⟩
    rcases Option.ne_none_iff_exists'.mp hrow with ⟨data, hget⟩
    rcases hrows id data hfits hget with hthere | ⟨hle, -, hid⟩
    · exact absurd ((Memory.mem_rowKeys hm hd hname).mpr ⟨id, hfits, hthere, rfl⟩) hnew
    · exact ⟨hle, id, hfits, hid, rfl⟩
  have hfind : ∀ {key}, (m'.rowKeys layout table).find? (· ∉ m.rowKeys layout table) = some key →
      key ∈ m'.rowKeys layout table ∧ key ∉ m.rowKeys layout table := by
    intro key h
    exact ⟨List.mem_of_find?_eq_some h, by simpa using List.find?_some h⟩
  refine List.Pairwise.eq_of_mem_iff ?_ (Memory.pairwise_rowKeys hm') fun key => ?_
  · refine List.pairwise_append.mpr ⟨(Memory.pairwise_rowKeys hm).sublist List.filter_sublist,
      ?_, fun a ha b hb => ?_⟩
    · cases (m'.rowKeys layout table).find? (· ∉ m.rowKeys layout table) <;> simp
    rcases hfind (Option.mem_toList.mp hb) with ⟨hmem, hnot⟩
    rcases hnew b hmem hnot with ⟨hle, id, hfits, rfl, rfl⟩
    rcases (Memory.mem_rowKeys hm hd hname).mp (List.mem_filter.mp ha).1 with ⟨old, hold, hrow, rfl⟩
    rcases Option.ne_none_iff_exists'.mp hrow with ⟨data, hget⟩
    rcases hbelow old data hold hget with ⟨k, hk, hlt, rfl⟩
    exact Slot.counted_lt hk (by omega) hfits
  · rw [arrivals, List.mem_append, List.mem_filter, decide_eq_true_eq, Option.mem_toList]
    constructor
    · rintro (⟨-, hmem⟩ | hmem)
      · exact hmem
      · exact (hfind hmem).1
    · intro hmem
      by_cases hold : key ∈ m.rowKeys layout table
      · exact Or.inl ⟨hold, hmem⟩
      rcases hfound : (m'.rowKeys layout table).find? (· ∉ m.rowKeys layout table) with - | other
      · exact absurd (decide_eq_true hold) (List.find?_eq_none.mp hfound key hmem)
      · rcases hfind hfound with ⟨hmem', hnot⟩
        rcases hnew key hmem hold with ⟨-, id, -, rfl, rfl⟩
        rcases hnew other hmem' hnot with ⟨-, id', -, rfl, rfl⟩
        exact Or.inr rfl

namespace Engine

variable {engine : Engine}

/-- What does not insert rows into a table leaves it no row that was not there. -/
theorem execute_present (hd : d.Describes engine.layout w.store) (ht : d.tables table = some schema)
    (hids : schema.KeepsIds) {sql : Option String} (hinsert : insertsInto table sql = false) :
    ((engine.execute sql).on w).2.store.EveryRow engine.layout table
      fun id _ => w.store.HasRow engine.layout table id := by
  rw [execute]
  rcases hread : Statement.ofText sql with fault | statement
  · exact fun _ _ _ hget => Contents.hasRow_of_get? hget
  · refine executeStatement_present hd ht hids (Statement.plain_of_ofText hread) ?_
    rintro columns values rfl
    rw [insertsInto, hread] at hinsert
    exact absurd hinsert (by simp)

/-- A row that a text leaves in a table without a key was there, or it has a number that was
    not given before. -/
theorem execute_arrives (hd : d.Describes engine.layout w.store) (ht : d.tables table = some schema)
    (hids : schema.KeepsIds) (hp : schema.primaryKey = none) (sql : Option String)
    (hnext : w.ids.NextIs table width first) :
    ∃ number next, first ≤ next ∧ ((engine.execute sql).on w).2.ids.NextIs table width next
      ∧ ((engine.execute sql).on w).2.store.EveryRow engine.layout table
        fun id _ => w.store.HasOrCounts engine.layout table width first number next id := by
  rw [execute]
  rcases hread : Statement.ofText sql with fault | statement
  · exact ⟨first, first, le_rfl, hnext, fun _ _ _ hget => Or.inl (Contents.hasRow_of_get? hget)⟩
  · exact executeStatement_arrives hd ht hids hp (Statement.plain_of_ofText hread) hnext

end Engine

/-- A run in which one executor fills a table. The keys are those of the rows that are there, in
    the order in which they have come, and the surroundings are those of this executor. Others
    have surroundings of their own, but the store is the same. They do not insert rows into the
    table, and nobody drops it. -/
inductive Arrived (layout : KeyLayout) (table : String) (start : Surroundings Memory) :
    List Bytes → Surroundings Memory → Prop where
  | start : Arrived layout table start [] start
  | own {keys : List Bytes} {s : Surroundings Memory} (h : Arrived layout table start keys s)
      (useIndexes : Bool) (sql : Option String) (keeps : dropsTable table sql = false) :
      Arrived layout table start
        (arrivals keys (((Engine.mk layout useIndexes).call sql s).2.store.rowKeys layout table))
        ((Engine.mk layout useIndexes).call sql s).2
  | other {keys : List Bytes} {s : Surroundings Memory} (h : Arrived layout table start keys s)
      (useIndexes : Bool) (sql : Option String) (ids : IdSource) (notes : List String)
      (keeps : dropsTable table sql = false) (leaves : insertsInto table sql = false) :
      Arrived layout table start
        (arrivals keys (((Engine.mk layout useIndexes).call sql
          ⟨s.store, ids, notes⟩).2.store.rowKeys layout table))
        { s with store := ((Engine.mk layout useIndexes).call sql ⟨s.store, ids, notes⟩).2.store }

/-- The executor that fills the table goes on with texts. -/
theorem Arrived.calls {start s : Surroundings Memory} {keys : List Bytes}
    (h : Arrived layout table start keys s) (useIndexes : Bool) {texts : List (Option String)}
    (hkeeps : ∀ sql ∈ texts, dropsTable table sql = false) :
    ∃ keys, Arrived layout table start keys ((Engine.mk layout useIndexes).calls texts s).2 := by
  induction texts generalizing s keys with
  | nil => exact ⟨keys, h⟩
  | cons sql texts ih =>
    exact ih (h.own useIndexes sql (hkeeps sql List.mem_cons_self)) fun other hother =>
      hkeeps other (List.mem_cons_of_mem _ hother)

/-- A table whose rows have counted ids, in surroundings from which it gets later ones. -/
structure Description.Counting (d : Description) (layout : KeyLayout) (table : String)
    (schema : TableSchema) (width : Int) (s : Surroundings Memory) (c : Contents) (next : Int) :
    Prop where
  declared : d.tables table = some schema
  entries : s.store.entries = c.entries
  describes : d.Describes layout c
  nonneg : 0 ≤ next
  ids : s.ids.NextIs table width next
  below : c.CountedBelow layout table width next

namespace Description.Counting

variable {s : Surroundings Memory}

/-- A row of a later number is put at the end. -/
theorem step (h : d.Counting layout table schema width s c first) {d' : Description}
    {s' : Surroundings Memory} (ht : d'.tables table = some schema)
    (hm : s'.store.entries = c'.entries) (hd : d'.Describes layout c') (hle : first ≤ next)
    (hids : s'.ids.NextIs table width next)
    (hrows : c'.EveryRow layout table fun id _ =>
      c.HasOrCounts layout table width first number next id) :
    d'.Counting layout table schema width s' c' next
      ∧ arrivals (s.store.rowKeys layout table) (s'.store.rowKeys layout table)
        = s'.store.rowKeys layout table := by
  have hname := h.describes.wellFormed.schema_fits table schema h.declared
  refine ⟨⟨ht, hm, hd, h.nonneg.trans hle, hids, fun id data hfits hget => ?_⟩,
    arrivals_rowKeys h.entries h.describes hm hd hname h.below hrows⟩
  rcases hrows id data hfits hget with hthere | ⟨hn, hlt, rfl⟩
  · rcases Option.ne_none_iff_exists'.mp hthere with ⟨before, hbefore⟩
    rcases h.below id before hfits hbefore with ⟨n, hn, hlt, rfl⟩
    exact ⟨n, hn, by omega, rfl⟩
  · exact ⟨number, h.nonneg.trans hn, hlt, rfl⟩

/-- A text that does not drop the table adds at most a row of a later number, if it gets its
    ids from where the table's own come. -/
theorem call (h : d.Counting layout table schema width s c first) {engine : Engine}
    (hlayout : engine.layout = layout) {sql : Option String}
    (hkeeps : dropsTable table sql = false) {ids : IdSource} {notes : List String}
    {s' : Surroundings Memory}
    (hm : s'.store.entries = ((engine.execute sql).on ⟨c, ids, notes⟩).2.store.entries)
    (hle : first ≤ next) (hids : s'.ids.NextIs table width next)
    (hrows : ((engine.execute sql).on ⟨c, ids, notes⟩).2.store.EveryRow layout table fun id _ =>
      c.HasOrCounts layout table width first number next id) :
    ∃ d' : Description, d'.Counting layout table schema width s'
        ((engine.execute sql).on ⟨c, ids, notes⟩).2.store next
      ∧ arrivals (s.store.rowKeys layout table) (s'.store.rowKeys layout table)
        = s'.store.rowKeys layout table := by
  subst hlayout
  rcases Engine.execute_becomes (w := ⟨c, ids, notes⟩) h.describes sql with ⟨d', hd', htables, -⟩
  have ht : d'.tables table = some schema := by
    rw [htables]
    exact Tables.afterText_of_declared h.declared hkeeps _
  exact ⟨d', h.step ht hm hd' hle hids hrows⟩

end Description.Counting

/-- In such a run the rows are stored in the order in which they have come. -/
theorem Arrived.counting {start s : Surroundings Memory} {keys : List Bytes}
    (h : Arrived layout table start keys s) (hids : schema.KeepsIds) (hp : schema.primaryKey = none)
    (hstart : ∃ d c next, Description.Counting d layout table schema width start c next)
    (hempty : start.store.rowKeys layout table = []) :
    keys = s.store.rowKeys layout table
      ∧ ∃ d c next, Description.Counting d layout table schema width s c next := by
  induction h with
  | start => exact ⟨hempty.symm, hstart⟩
  | @own keys s h useIndexes sql keeps ih =>
    rcases ih with ⟨rfl, d, c, first, hcounting⟩
    let w : World := ⟨c, s.ids, s.notes⟩
    have hs : s.Shows w := ⟨hcounting.entries, rfl, rfl⟩
    have hd : d.Describes (Engine.mk layout useIndexes).layout w.store := hcounting.describes
    rcases ((Engine.mk layout useIndexes).execute sql).run_memory hs with ⟨-, hshows⟩
    -- The source of the table's own ids has gone on, and a new row has one of its numbers.
    rcases Engine.execute_arrives hd hcounting.declared hids hp sql hcounting.ids with
      ⟨number, next, hle, hnext, hrows⟩
    rw [← hshows.ids] at hnext
    rcases hcounting.call rfl keeps hshows.entries hle hnext hrows with ⟨d', hcounting', horder⟩
    exact ⟨horder, d', _, next, hcounting'⟩
  | @other keys s h useIndexes sql ids notes keeps leaves ih =>
    rcases ih with ⟨rfl, d, c, next, hcounting⟩
    let w : World := ⟨c, ids, notes⟩
    have hs : Surroundings.Shows ⟨s.store, ids, notes⟩ w := ⟨hcounting.entries, rfl, rfl⟩
    have hd : d.Describes (Engine.mk layout useIndexes).layout w.store := hcounting.describes
    rcases ((Engine.mk layout useIndexes).execute sql).run_memory hs with ⟨-, hshows⟩
    -- Another executor has a source of its own, but it has put no new row into the table.
    have hrows := Engine.execute_present hd hcounting.declared hids leaves
    let s' : Surroundings Memory :=
      { s with store := ((Engine.mk layout useIndexes).call sql ⟨s.store, ids, notes⟩).2.store }
    have hm : s'.store.entries
        = (((Engine.mk layout useIndexes).execute sql).on w).2.store.entries := hshows.entries
    have hnext : s'.ids.NextIs table width next := hcounting.ids
    have hcounts : (((Engine.mk layout useIndexes).execute sql).on w).2.store.EveryRow layout table
        fun id _ => c.HasOrCounts layout table width next next next id :=
      fun id data hfits hget => Or.inl (hrows id data hfits hget)
    rcases hcounting.call rfl keeps hm le_rfl hnext hcounts with
      ⟨d', hcounting', horder⟩
    exact ⟨horder, d', _, next, hcounting'⟩

/-- Rows that are all alike stay as they are when they are sorted. -/
theorem stablySorted_self (rows : List Row) : StablySorted (compareRows []) rows rows where
  perm := .refl _
  ascending := List.pairwise_of_forall fun _ _ => by simp [compareRows]
  stable _ _ := rfl

/-- Rows are stored in the order in which they have come, and a query finds them in it. One
    executor, with ids that are counted from a number that is not below zero and padded to any
    width, has filled a table that has no primary key and was empty. Whatever else
    has been done, by it or by others, and whatever has failed, the rows that are left are stored
    in the order in which they were inserted. A query takes those that satisfy its conditions in
    this order. It returns them so if no other order is asked for, and else it sorts them
    stably. An index may be used if it holds what it should. There is a result if the conditions
    can be evaluated on every row, and if the indexes have places for what they are asked for. -/
theorem Arrived.rows_in_order {allows : Tables → Except Fault QueryResult → Prop} {tables : Tables}
    {start s : Surroundings Memory} {keys : List Bytes} (h : Arrived layout table start keys s)
    (hstart : Reached layout allows tables start.store) (ht : tables table = some schema)
    (hids : schema.KeepsIds) (hp : schema.primaryKey = none)
    (hempty : start.store.under (layout.rowPrefix table) = [])
    (hsource : start.ids.NextIs table width first) (hfirst : 0 ≤ first) :
    ∃ rows, s.store.Stores layout table rows
      ∧ rows.map (fun p => (rowEntry layout table p).1) = keys
      ∧ ∀ {useIndexes : Bool} {ids : IdSource} {notes : List String} {sql : Option String}
        {items : List SelectItem} {conditions : List Condition} {order : List OrderItem}
        {limit offset : Option Nat},
        (useIndexes = true → ∀ index column, s.store.Defines layout table index column →
          s.store.Lists layout table index column) →
        Statement.ofText sql = .ok (.select table items conditions order limit offset) →
        (∀ bound, bindConditions schema.stored conditions = .ok bound →
          (∀ p ∈ rows, ∃ matched, satisfies p.2 bound = .ok matched) →
          (useIndexes = true → ∀ condition ∈ bound, ∀ index,
            s.store.Defines layout table index condition.column →
            layout.Places table index condition.value) →
          ∃ result, ((Engine.mk layout useIndexes).call sql ⟨s.store, ids, notes⟩).1 = .ok result)
        ∧ ∀ result, ((Engine.mk layout useIndexes).call sql ⟨s.store, ids, notes⟩).1 = .ok result →
          ∃ bound sorted, bindConditions schema.stored conditions = .ok bound
            ∧ StablySorted (compareRows order) ((rows.filter (isMatch bound)).map Prod.snd) sorted
            ∧ (order = [] → sorted = (rows.filter (isMatch bound)).map Prod.snd)
            ∧ List.Forall₂ (Row.Projects (schema.asked items))
              ((sorted.drop (offset.getD 0)).take (limit.getD sorted.length)) result.rows := by
  rcases hstart.described with ⟨d₀, c₀, rfl, hm₀, hd₀⟩
  have hnone : start.store.rowKeys layout table = [] := by
    rw [Memory.rowKeys, hempty]
    rfl
  -- The table starts without rows, so all of its rows are below the first number.
  have hbelow : c₀.CountedBelow layout table width first := by
    intro id data hfits hget
    have hname := hd₀.wellFormed.schema_fits table schema ht
    have hmem := (Memory.mem_rowKeys hm₀ hd₀ hname).mpr
      ⟨id, hfits, Contents.hasRow_of_get? hget, rfl⟩
    rw [hnone] at hmem
    cases hmem
  rcases h.counting hids hp ⟨d₀, c₀, first, ht, hm₀, hd₀, hfirst, hsource, hbelow⟩ hnone with
    ⟨rfl, d, c, next, hcounting⟩
  have hm := hcounting.entries
  rcases exists_rows (w := ⟨c, s.ids, s.notes⟩) hcounting.describes hcounting.declared hids with
    ⟨rows, hrows⟩
  refine ⟨rows, hrows.stores hm, ?_, ?_⟩
  · rw [Memory.rowKeys, Memory.under, hm, hrows.scan, List.map_map]
    rfl
  intro useIndexes ids notes sql items conditions order limit offset hlists hread
  let w : World := ⟨c, ids, notes⟩
  have hs : Surroundings.Shows ⟨s.store, ids, notes⟩ w := ⟨hm, rfl, rfl⟩
  have hd : d.Describes (Engine.mk layout useIndexes).layout w.store := hcounting.describes
  have hindexed : (Engine.mk layout useIndexes).useIndexes = true →
      d.IndexedIn layout w.store table := fun huse =>
    hd.indexedIn hm hcounting.declared hids (hlists huse)
  rw [((Engine.mk layout useIndexes).call_statement hread hs).1]
  constructor
  · intro bound hbound hmatches hplaced
    exact Engine.exists_select hd hcounting.declared hindexed hrows hbound hmatches
      (fun huse condition hmem index hcovers =>
        hplaced huse condition hmem index (hd.defines hm hcovers)) items order limit offset
  · intro result hcall
    rcases Engine.select_sorts hd hcounting.declared hindexed hrows hcall with
      ⟨bound, sorted, hbound, hsorted, hunique, hpage, -⟩
    refine ⟨bound, sorted, hbound, hsorted, ?_, hpage⟩
    rintro rfl
    exact (hunique _ (stablySorted_self _)).symm

/-- A table with an index, and nothing in it. -/
def emptyTable : List (Option String) :=
  [some "CREATE TABLE t (a INTEGER)", some "CREATE INDEX i ON t(a)"]

/-- An executor with the table. It pads ids to one digit, and has come to the last number of
    one. -/
def atLastDigit : Surroundings Memory :=
  ⟨(freshRun emptyTable).2.store, .counting 9 1, []⟩

/-- Four rows, of which the first gets its entry in the index last, and the third is removed. -/
def outgrownRows : List (Option String) :=
  [some "INSERT INTO t VALUES (2)", some "INSERT INTO t VALUES (1)",
    some "INSERT INTO t VALUES (1)", some "INSERT INTO t VALUES (1)",
    some "UPDATE t SET a = 1 WHERE a = 2", some "DELETE FROM t WHERE _id = '11'"]

/-- A query that goes through the index finds the others in the order in which they came. -/
theorem rows_in_order_outgrownRows :
    ∃ (keys : List Bytes) (rows : List (String × Row)) (bound : List Condition),
      Arrived defaultLayout "t" atLastDigit keys
        ((Engine.mk defaultLayout true).calls outgrownRows atLastDigit).2
      ∧ rows.map (fun p => (rowEntry defaultLayout "t" p).1) = keys
      ∧ List.Forall₂ (Row.Projects [⟨"_id", none⟩]) ((rows.filter (isMatch bound)).map Prod.snd)
        [[("_id", .text "9")], [("_id", .text "10")], [("_id", .text "12")]] := by
  have hread : Statement.ofText (some "SELECT _id FROM t WHERE a = 1")
      = .ok (.select "t" [⟨"_id", none⟩] [⟨"a", .equal, .int 1⟩] [] none none) := by
    decide +kernel
  have hruns : (∀ r ∈ (freshRun emptyTable).1, WithinLimits r)
      ∧ Tables.afterTexts (fun _ => none) emptyTable (freshRun emptyTable).1 "t"
        = some ⟨"t", [⟨"a", "INTEGER", true, false, .null⟩], none⟩
      ∧ atLastDigit.store.under (defaultLayout.rowPrefix "t") = []
      ∧ (∀ sql ∈ outgrownRows, leavesIds sql = true ∧ dropsTable "t" sql = false)
      ∧ (∀ r ∈ ((Engine.mk defaultLayout true).calls outgrownRows atLastDigit).1, WithinLimits r)
      ∧ Tables.afterTexts (Tables.afterTexts (fun _ => none) emptyTable (freshRun emptyTable).1)
          outgrownRows ((Engine.mk defaultLayout true).calls outgrownRows atLastDigit).1 "t"
        = some ⟨"t", [⟨"a", "INTEGER", true, false, .null⟩], none⟩
      ∧ (((Engine.mk defaultLayout true).findRows "t" [⟨"a", .equal, .int 1⟩]).run memoryBackend
          ((Engine.mk defaultLayout true).calls outgrownRows atLastDigit).2).1
        = .ok ([("9", [("a", .int 1), ("_id", .text "9")]),
          ("10", [("a", .int 1), ("_id", .text "10")]),
          ("12", [("a", .int 1), ("_id", .text "12")])].map asFound) := by
    decide +kernel
  rcases hruns with ⟨hlimits, htable, hempty, htexts, hlimits', htable', hfound⟩
  have hreached : Reached defaultLayout Orderly
      (Tables.afterTexts (fun _ => none) emptyTable (freshRun emptyTable).1) atLastDigit.store := by
    simpa only [atLastDigit] using reached_freshRun (by decide +kernel) hlimits
  have hfilled := hreached.calls true outgrownRows (fun sql hsql => (htexts sql hsql).1) hlimits'
  have hcall : ((Engine.mk defaultLayout true).call (some "SELECT _id FROM t WHERE a = 1")
        ((Engine.mk defaultLayout true).calls outgrownRows atLastDigit).2).1
      = .ok {
        rows := [[("_id", .text "9")], [("_id", .text "10")], [("_id", .text "12")]]
        columns := [.string "_id"] } := by
    rw [hfilled.call_select hread htable' (by decide +kernel) hfound, sortRows_nil]
    cbv
  have hids : TableSchema.KeepsIds ⟨"t", [⟨"a", "INTEGER", true, false, .null⟩], none⟩ := by decide
  have hrun₀ : Arrived defaultLayout "t" atLastDigit [] atLastDigit := .start
  rcases hrun₀.calls true fun sql hsql => (htexts sql hsql).2 with ⟨keys, hrun⟩
  have hsource : atLastDigit.ids.NextIs "t" 1 9 := ⟨9, [], rfl, rfl⟩
  rcases hcalls : (Engine.mk defaultLayout true).calls outgrownRows atLastDigit with ⟨outcomes, s⟩
  rw [hcalls] at hrun hfilled hcall
  rcases hrun.rows_in_order hreached htable hids rfl hempty hsource (by decide) with
    ⟨rows, -, hkeys, hselects⟩
  rcases (hselects (fun _ _ _ hdefines => hfilled.lists hdefines) hread).2 _ hcall with
    ⟨bound, sorted, -, -, hsorted, hpage⟩
  refine ⟨keys, rows, bound, hrun, hkeys, ?_⟩
  obtain rfl := hsorted rfl
  rw [Option.getD_none, Option.getD_none, List.drop_zero, List.take_length] at hpage
  exact hpage

end TableStore
