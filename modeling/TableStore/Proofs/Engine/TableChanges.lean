import TableStore.Proofs.Engine.IndexAgreement
import TableStore.Proofs.Engine.RowChanges

/-!
# Changes of a Table

What a user can see of a change: the rows of a table as they lie in the store,
byte for byte and in their order, what the other keys hold, and whether the
indexes agree with the rows. A statement that has changed some rows has left all
other keys alone, except for the keys of the entries of these rows.

An assigned row is described without going through the assignments. Each
assigned column has what its assignment gives for the old row, in the form of
the column, and all else is as it was.

## Main definitions

* `TableSchema.Rewrites`: A row that assignments leave.
* `Memory.Stores`: The rows of a table.
* `Memory.ChangesOnly`: A change of certain rows and their entries.
* `Memory.Rewrites`, `Memory.Removes`: The changes that statements make.
* `Description.EndsAs`: Surroundings that a plain form leaves, except for
  indexes.

## Theorems

* `TableSchema.rewrites_of_assignRow`: What assignments leave of a row.
* `Engine.findsRows_ends`: Statements end as their plain forms do.
* `Description.EndsAs.rewrites`, `removes`: What is left of the store.
-/

namespace TableStore

open Access

variable {layout : KeyLayout} {d : Description} {c c' : Contents} {m m' : Memory} {table : String}
  {schema : TableSchema} {rows part : List (String × Row)} {w v w' : World}

/-- A row that assignments leave of an old one. The names and their order are the
    same. A column has the value that its last assignment gives for the old row,
    in the form of the column, and what is not assigned is as it was. -/
structure TableSchema.Rewrites (schema : TableSchema) (assignments : List Assignment)
    (old new : Row) : Prop where
  names : Members.names new = Members.names old
  assigned : ∀ before assignment after, assignments = before ++ assignment :: after →
    assignment.column ∉ after.map Assignment.column →
    ∃ column ∈ schema.columns, column.name = assignment.column
      ∧ ∃ v stored, assignment.apply (Row.value old assignment.column) = .ok v
        ∧ v.coerce column.typeName column.name = .ok stored
        ∧ Members.get? new assignment.column = some stored
  kept : ∀ name, name ∉ assignments.map Assignment.column →
    Members.get? new name = Members.get? old name

/-- The steps of a row through its assignments. -/
theorem TableSchema.assigned_of_assignRow {assignments : List Assignment} {old row new : Row}
    (hnames : ∀ name ∈ schema.names, name ∈ Members.names row)
    (h : assignRow schema.stored old row assignments = .ok new) :
    Members.names new = Members.names row
      ∧ ∀ before assignment after, assignments = before ++ assignment :: after →
        assignment.column ∉ after.map Assignment.column →
        ∃ column ∈ schema.columns, column.name = assignment.column
          ∧ ∃ v stored, assignment.apply (Row.value old assignment.column) = .ok v
            ∧ v.coerce column.typeName column.name = .ok stored
            ∧ Members.get? new assignment.column = some stored := by
  induction assignments generalizing row with
  | nil =>
    rw [← Except.ok.inj h]
    exact ⟨rfl, fun before _ _ heq => absurd heq (by simp)⟩
  | cons first assignments ih =>
    rcases exists_of_assignRow_cons h with ⟨column, hmem, hname, v, stored, hv, hstored, hrest⟩
    have hfirst : column.name ∈ Members.names row := hnames _ (List.mem_map_of_mem hmem)
    rcases ih (fun name hname => by
      rw [Members.names_set_of_mem hfirst]
      exact hnames name hname) hrest with ⟨hkept, hassigned⟩
    refine ⟨hkept.trans (Members.names_set_of_mem hfirst _), fun before a after heq hlast => ?_⟩
    -- The last assignment to a column counts, and it works on the old value.
    cases before with
    | nil =>
      rcases List.cons.inj heq with ⟨rfl, rfl⟩
      refine ⟨column, hmem, hname, v, stored, hv, hstored, ?_⟩
      rw [get?_of_assignRow hrest hlast, Members.get?_set, if_pos hname.symm]
    | cons other before =>
      rw [List.cons_append, List.cons.injEq] at heq
      exact hassigned before a after heq.2 hlast

/-- What assignments leave of a row. -/
theorem TableSchema.rewrites_of_assignRow {assignments : List Assignment} {id : String}
    {old new : Row} (haccepts : schema.Accepts id old)
    (h : assignRow schema.stored old old assignments = .ok new) :
    schema.Rewrites assignments old new := by
  have hnames : ∀ name ∈ schema.names, name ∈ Members.names old := fun name hname => by
    rw [haccepts.names]
    exact List.mem_append_left _ hname
  rcases assigned_of_assignRow hnames h with ⟨hkept, hassigned⟩
  exact ⟨hkept, hassigned, fun name hname => get?_of_assignRow h hname⟩

/-- The rows of a table, each with its id, in the order of their keys. Each is
    stored in the bytes that it is written as. -/
structure Memory.Stores (layout : KeyLayout) (m : Memory) (table : String)
    (rows : List (String × Row)) : Prop where
  scan : scanEntries (layout.rowPrefix table) m.entries = rows.map (rowEntry layout table)
  keyed : ∀ p ∈ rows, layout.rowKey? table (Text.encode p.1) = .ok (rowEntry layout table p).1
  read : ∀ p ∈ rows, Row.ofBytes (Row.bytes p.2) = .ok p.2

/-- The definition of an index is stored. -/
def Memory.Defines (layout : KeyLayout) (m : Memory) (table index column : String) : Prop :=
  ∃ key, layout.indexMetaKey? table index = .ok key
    ∧ lookupEntry key m.entries = some (IndexDefinition.toBytes ⟨index, table, column⟩)

/-- A change of the rows with certain ids and of their entries. All other keys
    keep their values, and the indexes of the table agree with the rows
    afterwards. -/
structure Memory.ChangesOnly (layout : KeyLayout) (table : String) (ids : List String)
    (m m' : Memory) : Prop where
  others : ∀ key, (∀ id ∈ ids, layout.rowKey? table (Text.encode id) ≠ .ok key) →
    (∀ id ∈ ids, ∀ index v, layout.indexKey table index v (Text.encode id) ≠ .ok key) →
    lookupEntry key m'.entries = lookupEntry key m.entries
  indexes : ∀ index column, m.Defines layout table index column →
    m'.Lists layout table index column

/-- A change of a table by assignments to some of its rows. -/
structure Memory.Rewrites (layout : KeyLayout) (table : String) (schema : TableSchema)
    (assignments : List Assignment) (part rows : List (String × Row)) (m m' : Memory) : Prop where
  stores : m'.Stores layout table
    (rows.map fun p => if p ∈ part then (p.1, schema.stored.rewrite assignments p.2) else p)
  rewrites : ∀ p ∈ part, schema.Rewrites assignments p.2 (schema.stored.rewrite assignments p.2)
  changes : m.ChangesOnly layout table (part.map Prod.fst) m'

/-- A change of a table by removing some of its rows. -/
structure Memory.Removes (layout : KeyLayout) (table : String) (part rows : List (String × Row))
    (m m' : Memory) : Prop where
  stores : m'.Stores layout table (rows.filter fun p => p ∉ part)
  changes : m.ChangesOnly layout table (part.map Prod.fst) m'

theorem Contents.HoldsRows.stores (h : c.HoldsRows layout table schema rows)
    (hm : m.entries = c.entries) : m.Stores layout table rows where
  scan := by
    rw [hm, scanEntries_eq_filter c.ascending]
    exact h.scan
  keyed p hp := KeyLayout.rowKey?_fits (h.filed p hp).fits
  read p hp := (h.filed p hp).read

namespace Description

/-- The key of a stored entry is one that an index has for a value. -/
theorem Describes.indexKey_of_get? (hd : d.Describes layout c) (hindexed : d.Indexed layout c)
    {index : String} {value : Bytes} {id : String}
    (hfits : (Slot.entry table index value (Text.encode id)).Fits) {data : Bytes}
    (hget : c.get? ((Slot.entry table index value (Text.encode id)).key layout) = some data) :
    ∃ v, layout.indexKey table index v (Text.encode id)
      = .ok ((Slot.entry table index value (Text.encode id)).key layout) := by
  rcases (hd.get?_entry_iff hindexed hfits).mp hget with ⟨column, -, -, hencode⟩
  have hkey : Index.entryKey layout table index _ (.text id) = _ :=
    Index.entryKey_fits hencode rfl hfits
  exact ⟨_, hkey⟩

/-- An index whose definition is stored covers the column that it is defined for. -/
theorem Describes.covers_of_defines (hd : d.Describes layout c) (hm : m.entries = c.entries)
    {index column : String} (hdefines : m.Defines layout table index column) :
    d.covers table index = some column := by
  rcases hdefines with ⟨key, hkey, hget⟩
  rcases KeyLayout.indexMetaKey?_ok hkey with ⟨rfl, hfits⟩
  rw [hm] at hget
  rcases (hd.get?_definition_iff hfits).mp hget with ⟨covered, hcovers, hbytes⟩
  have hsame := IndexDefinition.toBytes_injective hbytes
  rw [IndexDefinition.mk.injEq] at hsame
  rw [hsame.2.2]
  exact hcovers

/-- The definition of an index that covers a column is stored. -/
theorem Describes.defines (hd : d.Describes layout c) (hm : m.entries = c.entries)
    {index column : String} (hcovers : d.covers table index = some column) :
    m.Defines layout table index column := by
  refine ⟨_, KeyLayout.indexMetaKey?_fits (hd.wellFormed.definition_slot_fits hcovers), ?_⟩
  rw [hm]
  exact hd.definition_stored table index column hcovers

/-- A change of rows and their entries, seen by keys. -/
theorem Describes.changesOnly (hd : d.Describes layout c) (hd' : d.Describes layout c')
    (hindexed : d.Indexed layout c) (hindexed' : d.Indexed layout c')
    (hkeeps : ∀ t schema, d.tables t = some schema → schema.KeepsIds)
    (h : c.SameExcept layout (fun slot => ∃ p ∈ part, slot.IsAbout table (Text.encode p.1)) c')
    (hm : m.entries = c.entries) (hm' : m'.entries = c'.entries) :
    m.ChangesOnly layout table (part.map Prod.fst) m' where
  others key hrow hentry := by
    rw [hm, hm']
    by_cases hslot : ∃ slot : Slot, slot.Fits ∧ key = slot.key layout
      ∧ ∃ p ∈ part, slot.IsAbout table (Text.encode p.1)
    · rcases hslot with ⟨slot, hfits, rfl, p, hp, rfl | ⟨index, value, rfl⟩⟩
      · exact absurd (KeyLayout.rowKey?_fits hfits) (hrow p.1 (List.mem_map_of_mem hp))
      · -- Whatever is stored there has the key of an entry, so nothing is.
        have hnone : ∀ {a : Contents}, d.Describes layout a → d.Indexed layout a →
            a.get? ((Slot.entry table index value (Text.encode p.1)).key layout) = none := by
          intro a ha hai
          rcases hget : a.get? ((Slot.entry table index value (Text.encode p.1)).key layout)
            with _ | data
          · rfl
          · rcases ha.indexKey_of_get? hai hfits hget with ⟨v, hkey⟩
            exact absurd hkey (hentry p.1 (List.mem_map_of_mem hp) index v)
        exact (hnone hd' hindexed').trans (hnone hd hindexed).symm
    · exact h key fun slot hfits hchanged hkey => hslot ⟨slot, hfits, hkey, hchanged⟩
  indexes _ _ hdefines := hindexed'.lists hd' hkeeps (hd.covers_of_defines hm hdefines) hm'

/-- Surroundings that hold what a description says, with indexes that agree with
    the rows, and that are like other ones except for these. -/
structure EndsAs (layout : KeyLayout) (d : Description) (v w : World) : Prop where
  describes : d.Describes layout w.store
  indexed : d.Indexed layout w.store
  alike : v.Alike layout w

namespace EndsAs

/-- Surroundings in which the plain form has changed nothing. -/
theorem unchanged (h : d.EndsAs layout v w') (hd : d.Describes layout w.store)
    (hindexed : d.Indexed layout w.store) (hv : v = w) :
    w'.store = w.store ∧ w'.ids = w.ids := by
  subst hv
  exact ⟨(hd.eq_of_alike h.describes hindexed h.indexed h.alike).symm, h.alike.ids⟩

variable {left : String × Row → Option Row}

/-- Surroundings in which the plain form has changed rows. -/
theorem same_except (h : d.EndsAs layout v w') (hd : d.Describes layout w.store)
    (hindexed : d.Indexed layout w.store) (hv : w.ChangesRows layout table left part v) :
    w.store.SameExcept layout
      (fun slot => ∃ p ∈ part, slot.IsAbout table (Text.encode p.1)) w'.store := by
  have hsame : w.store.SameExcept layout (fun slot => ∃ t id,
      (∃ p ∈ part, t = table ∧ id = Text.encode p.1) ∧ slot.IsAbout t id) w'.store := by
    -- The entries follow from the rows, in the old store and in the new one.
    refine hd.same_except h.describes hindexed h.indexed
      ((hv.steps.store.imp ?_).trans (h.alike.store.imp fun _ => Or.inl))
    rintro _ ⟨p, hp, rfl⟩
    exact Or.inr ⟨_, _, ⟨p, hp, rfl, rfl⟩, rfl⟩
  refine hsame.imp ?_
  rintro slot ⟨_, _, ⟨p, hp, rfl, rfl⟩, hslot⟩
  exact ⟨p, hp, hslot⟩

theorem holdsRows (h : d.EndsAs layout v w') (hrows : w.store.HoldsRows layout table schema rows)
    (hname : Key.fits (Text.encode table) = true) (hpart : part ⊆ rows)
    (hv : w.ChangesRows layout table left part v)
    (hfiled : ∀ p ∈ part, ∀ row, left p = some row → FiledRow table schema (p.1, row)) :
    w'.store.HoldsRows layout table schema (changedRows left part rows) :=
  (hrows.changed hname hpart hv.steps.store hv.stored hfiled).of_alike hname h.alike

/-- What is left when rows have been removed. -/
theorem removes (h : d.EndsAs layout v w') (hd : d.Describes layout w.store)
    (hindexed : d.Indexed layout w.store)
    (hkeeps : ∀ t schema, d.tables t = some schema → schema.KeepsIds)
    (ht : d.tables table = some schema) (hrows : w.store.HoldsRows layout table schema rows)
    (hpart : part ⊆ rows) (hv : w.ChangesRows layout table (fun _ => none) part v)
    (hm : m.entries = w.store.entries) (hm' : m'.entries = w'.store.entries) :
    m.Removes layout table part rows m' where
  stores := by
    have hname := hd.wellFormed.schema_fits table schema ht
    rw [← changedRows_none]
    exact (h.holdsRows hrows hname hpart hv fun _ _ _ hnone => absurd hnone (by simp)).stores hm'
  changes := hd.changesOnly h.describes hindexed h.indexed hkeeps (h.same_except hd hindexed hv) hm hm'

/-- What is left when rows have been assigned. -/
theorem rewrites (h : d.EndsAs layout v w') (hd : d.Describes layout w.store)
    (hindexed : d.Indexed layout w.store)
    (hkeeps : ∀ t schema, d.tables t = some schema → schema.KeepsIds)
    (ht : d.tables table = some schema) (hrows : w.store.HoldsRows layout table schema rows)
    (hpart : part ⊆ rows) {assignments : List Assignment}
    (hassignments : ∀ a ∈ assignments, a.value.IsDenoted)
    (hcan : ∀ p ∈ part, schema.stored.CanRewrite assignments p.2)
    (hv : w.ChangesRows layout table (fun p => some (schema.stored.rewrite assignments p.2)) part v)
    (hm : m.entries = w.store.entries) (hm' : m'.entries = w'.store.entries) :
    m.Rewrites layout table schema assignments part rows m' where
  stores := by
    have hname := hd.wellFormed.schema_fits table schema ht
    have hwell := hd.wellFormed.schema_wellFormed table schema ht
    rw [← changedRows_some fun p => schema.stored.rewrite assignments p.2]
    refine (h.holdsRows hrows hname hpart hv fun p hp row hrow => ?_).stores hm'
    rcases hcan p hp with ⟨hassign, data, hdata⟩
    have hfiled := hrows.filed p (hpart hp)
    rw [← Option.some.inj hrow]
    exact FiledRow.of_toBytes hwell (hkeeps table schema ht) hfiled.fits
      (accepts_of_assignRow hwell (hkeeps table schema ht) hassignments hfiled.accepts hfiled.accepts
        hassign) hdata
  rewrites p hp :=
    TableSchema.rewrites_of_assignRow (hrows.filed p (hpart hp)).accepts (hcan p hp).1
  changes := hd.changesOnly h.describes hindexed h.indexed hkeeps (h.same_except hd hindexed hv) hm hm'

end EndsAs

end Description

/-- Statements about rows end as their plain forms do. -/
theorem Engine.findsRows_ends {engine : Engine} {statement : Statement}
    (hd : d.Describes engine.layout w.store) (hindexed : d.Indexed engine.layout w.store)
    (hplain : statement.Plain) (hfinds : statement.FindsRows)
    (ht : d.tables statement.table = some schema) (hids : schema.KeepsIds)
    (hrows : w.store.HoldsRows engine.layout statement.table schema rows)
    {find : List Condition → Except Fault (List (Value × Row))} (hfind : FindsAlways rows find)
    (hlooks : ∀ conditions, (engine.findRows statement.table conditions).Looks w (find conditions))
    (hlimit : WithinLimits ((engine.executeStatement statement).on w).1) :
    ((engine.executeStatement statement).on w).1
        = ((statement.plainly engine.layout schema.stored find).on w).1
      ∧ d.EndsAs engine.layout ((statement.plainly engine.layout schema.stored find).on w).2
        ((engine.executeStatement statement).on w).2 := by
  have hfollows : (engine.executeStatement statement).KeepsUp engine.layout d
      (statement.plainly engine.layout schema.stored find) w w :=
    executeStatement_follows hd hindexed hplain hfinds ht hids hrows hfind hlooks
      (World.Alike.refl engine.layout w)
  have hobeys := @obeys_execute d engine hd.wellFormed statement hplain
    hfinds.manipulates
  rcases hfollows.ends hlimit with ⟨hout, halike, hindexed'⟩
  exact ⟨hout, (hobeys.describes hd).1, hindexed', halike⟩

end TableStore
