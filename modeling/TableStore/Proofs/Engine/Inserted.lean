import TableStore.Proofs.Engine.Duplicates
import TableStore.Proofs.Engine.Selection

/-!
# Rows That Are Inserted

A value comes into a row by one way and is looked for by another. On its way
into the row it is coerced, written and read back, and its bytes become part of
an entry in every index of the column. A literal that is looked for is coerced
too, and then either compared with the values of all rows or turned into the
bytes of entries.

The ways meet because both begin with the same coercion, which does for a literal
what it has done for the value. From there on the value that was stored is the
one that is looked for, and a value equals itself. The way through an index has
one more condition: the index must have a place for the value. But an insertion
that has come to its end has put an entry there.

## Main definitions

* `Description.Inserts`: A store with one more row.

## Theorems

* `Engine.insert_inserts`: What an insertion leaves.
* `Reached.finds_inserted`: What is inserted is found.
-/

namespace TableStore

open Access

variable {d : Description} {layout : KeyLayout} {table : String} {schema : TableSchema}
  {p : String × Row} {rows : List (String × Row)} {c c' : Contents} {w w' : World}
  {columns : Option (List String)} {values : List Value}

/-- A store with one more row: it is stored under an id that no row had, and the
    indexes agree with the rows again and have places for its values. -/
structure Description.Inserts (d : Description) (layout : KeyLayout) (table : String)
    (p : String × Row) (c c' : Contents) : Prop where
  describes : d.Describes layout c'
  indexed : d.Indexed layout c'
  fits : (Slot.row table (Text.encode p.1)).Fits
  fresh : c.get? ((Slot.row table (Text.encode p.1)).key layout) = none
  stored : ∃ data, Row.ofBytes data = .ok p.2 ∧ Contents.SameExcept layout Slot.IsOfIndex
    (c.insert ((Slot.row table (Text.encode p.1)).key layout) data) c'
  placed : ∀ index column, d.covers table index = some column →
    layout.Places table index (Row.value p.2 column)

/-- A condition that asks for a value which a column takes asks for it as the column
    has it. -/
theorem bindConditions_of_coerce (hwell : schema.WellFormed) {column : Column}
    (hcolumn : column ∈ schema.columns) {given v : Value}
    (h : given.coerce column.typeName column.name = .ok v) :
    bindConditions schema.stored [⟨column.name, .equal, given⟩]
      = .ok [⟨column.name, .equal, v⟩] := by
  have hbind : bindCondition schema.stored ⟨column.name, .equal, given⟩
      = .ok ⟨column.name, .equal, v⟩ := by
    rw [bindCondition, TableSchema.column?_of_mem hwell hcolumn]
    dsimp only
    rw [Column.tryCoerce_stored, Value.tryCoerce_of_coerce h]
    rfl
  rw [bindConditions, List.mapM_cons, hbind]
  rfl

namespace Description.Inserts

/-- The new row is among the rows of its table. -/
theorem mem (h : d.Inserts layout table p c c') (hrows : c'.HoldsRows layout table schema rows) :
    p ∈ rows := by
  rcases h.stored with ⟨data, hread, hsame⟩
  have hget : c'.get? ((Slot.row table (Text.encode p.1)).key layout) = some data := by
    rw [hsame.get?_slot h.fits fun hindex => hindex, Contents.get?_insert_self]
  rcases hrows.mem_of_get? h.fits hget with ⟨q, hq, hid, rfl⟩
  have hrow : q.2 = p.2 := Except.ok.inj ((hrows.filed q hq).read.symm.trans hread)
  rwa [show p = q from Prod.ext (Text.encode_injective hid) hrow.symm]

/-- The other rows are the ones that there were. -/
theorem holdsRows (h : d.Inserts layout table p c c') (hname : Key.fits (Text.encode table) = true)
    (hrows : c'.HoldsRows layout table schema rows) :
    c.HoldsRows layout table schema (rows.filter fun q => q ∉ [p]) := by
  rcases h.stored with ⟨data, -, hsame⟩
  have hpart : [p] ⊆ rows := by
    intro q hq
    rw [List.mem_singleton.mp hq]
    exact h.mem hrows
  -- Seen from the end, the insertion is a removal of the row and a change of indexes.
  rw [← changedRows_none]
  refine (hrows.of_sameExcept hname hsame.symm).changed hname hpart
    (Contents.SameExcept.insert h.fits ⟨p, List.mem_singleton_self p, rfl⟩ data).symm ?_
    fun _ _ _ hnone => absurd hnone (by simp)
  intro q hq
  rw [List.mem_singleton.mp hq]
  exact h.fresh

/-- The rows before and after. -/
theorem exists_rows (h : d.Inserts layout table p c c')
    (hname : Key.fits (Text.encode table) = true)
    (hrows : c'.HoldsRows layout table schema rows) :
    ∃ first last, rows = first ++ p :: last
      ∧ c.HoldsRows layout table schema (first ++ last) := by
  rcases List.append_of_mem (h.mem hrows) with ⟨first, last, rfl⟩
  have hbefore := h.holdsRows hname hrows
  have hnodup := hrows.nodup.of_map
  rw [List.nodup_middle, List.nodup_cons, List.mem_append, not_or] at hnodup
  -- No row is stored twice, so the new one is not among those on either side.
  have hkept : ∀ {part : List (String × Row)}, p ∉ part →
      part.filter (fun q => q ∉ [p]) = part := by
    intro part hp
    refine List.filter_eq_self.mpr fun q hq => ?_
    rw [decide_eq_true_eq, List.mem_singleton]
    rintro rfl
    exact hp hq
  rw [List.filter_append, List.filter_cons_of_neg (by simp), hkept hnodup.1.1, hkept hnodup.1.2]
    at hbefore
  exact ⟨first, last, rfl, hbefore⟩

end Description.Inserts

namespace Engine

variable {engine : Engine}

/-- What an insertion leaves: one more row, with the values that were supplied. -/
theorem insert_inserts (hd : d.Describes engine.layout w.store)
    (hindexed : d.Indexed engine.layout w.store) (ht : d.tables table = some schema)
    (hids : schema.KeepsIds) (hnodup : ∀ names, columns = some names → names.Nodup)
    (hvalues : ∀ v ∈ values, v.IsDenoted) {result : QueryResult}
    (hrun : (engine.executeStatement (.insert table columns values)).on w = (.ok result, w')) :
    ∃ p, d.Inserts engine.layout table p w.store w'.store
      ∧ schema.Supplies ((columns.getD schema.names).zip values) p.2 := by
  have hplain : (Statement.insert table columns values).Plain := hvalues
  have hdescribes := ((@obeys_execute d engine hd.wellFormed _ hplain trivial).describes hd).1
  rw [hrun] at hdescribes
  have hfiled := @fileRow_describes d table w engine hd columns values hvalues
  rcases exists_of_run_bind_ok (x := engine.fileRow table columns values) hrun with
    ⟨filed, w₁, hfile, hends⟩
  have hdeclares := hd.declares ht
  rcases (fileRow_files hdeclares hids hvalues).of_ok hfile with
    ⟨supplied, row, data, hlength, hsupplied, hrow, hfiles, -, hstore⟩
  have hfills := hfiles.fills hdeclares.wellFormed hnodup hlength hsupplied
  have hapart := (ofList_supplied (hdeclares.wellFormed.nodup_getD hnodup) hlength).2
  have hfits := hfiles.fits
  rcases filed with ⟨fields, id⟩
  dsimp only at hrow hfiles hfills hfits hstore
  subst hrow
  rw [hfile] at hfiled
  -- The indexes are looked up in the store that has the row already.
  rcases Catalog.looks_indexes hfiled hfits.table_fits with ⟨indexes, hlists, hlooks⟩
  dsimp only [Slot.table] at hends hlists hlooks
  rw [hlooks.run_bind] at hends
  rcases exists_of_run_bind_ok hends with ⟨_, w₂, hadd, hdone⟩
  obtain rfl : w₂ = w' := (Prod.mk.inj hdone).2
  rcases (addEntries_succeeds hlists.concerns hindexed hfits hfiles.fresh hfiles.read
    hstore).of_ok hadd with
    ⟨hsteps, hindexed'⟩
  rw [addEntries_stored] at hadd
  have hplaced := (Index.moveAll_placed _ _ indexes).of_ok hadd
  refine ⟨(id, row), ⟨hdescribes, hindexed', hfits, hfiles.fresh, ⟨data, hfiles.read, ?_⟩, ?_⟩,
    hfills.supplies hapart⟩
  · rw [← hstore]
    exact hsteps.store.imp fun _ => Slot.isOfIndex_of_isEntryAmong
  · intro index column hcovers
    rcases hlists.complete index column hcovers with ⟨other, hother, rfl, rfl⟩
    exact hplaced other hother

variable {s after : Surroundings Memory}

/-- A search for a value that was supplied finds the new row. -/
theorem selects_inserted (h : d.Inserts engine.layout table p c w.store)
    (ht : d.tables table = some schema) (hids : schema.KeepsIds)
    (hrows : w.store.HoldsRows engine.layout table schema rows) {column : Column}
    (hcolumn : column ∈ schema.columns) {given : Value}
    (hgiven : given.coerce column.typeName column.name = .ok (Row.value p.2 column.name))
    (hs : s.Shows w) :
    ∃ part, p ∈ part
      ∧ engine.Selects s table schema [⟨column.name, .equal, given⟩] part rows := by
  have hwell := h.describes.wellFormed.schema_wellFormed table schema ht
  have hname := h.describes.wellFormed.schema_fits table schema ht
  have hbound := bindConditions_of_coerce hwell hcolumn hgiven
  have hequal : ∀ condition ∈ [Condition.mk column.name .equal (Row.value p.2 column.name)],
      condition.operator = .equal :=
    fun condition hmem => by rw [List.mem_singleton.mp hmem]
  have hmatches : ∀ p ∈ rows, ∃ matched, satisfies p.2 _ = .ok matched := fun p _ =>
    exists_satisfies hequal p.2
  rcases exists_matchesOf hmatches with ⟨found, hfound⟩
  have hlooks := looks_findRows_placed h.describes (h.indexed table) hname hrows
    (fun condition hmem _ index hcovers => by
      rw [List.mem_singleton.mp hmem] at hcovers ⊢
      exact h.placed index column.name hcovers) hfound
  refine ⟨_, List.mem_filter.mpr ⟨h.mem hrows, ?_⟩,
    selects h.describes ht hids hrows hbound hlooks hs⟩
  -- The row has the value itself, and no value of a row is unequal to itself.
  have hregular := Row.isRegular_value (hrows.filed p (h.mem hrows)).accepts.regular column.name
  rw [isMatch, satisfies, ComparisonOperator.holds, Value.equals_self hregular.ordered]
  rfl

end Engine

/-- What is inserted is found. An insertion adds one row to its table. It has each
    value that was supplied in the form of its column, and a query for a row with this
    value finds it, with the use of indexes and without. -/
theorem Reached.finds_inserted {tables : Tables} {s after : Surroundings Memory}
    (h : Reached layout Orderly tables s.store) {useIndexes : Bool} {sql : Option String}
    {result : QueryResult} (hread : Statement.ofText sql = .ok (.insert table columns values))
    (hrun : (Engine.mk layout useIndexes).call sql s = (.ok result, after)) :
    ∃ schema, tables table = some schema ∧ ∃ p first last,
      s.store.Stores layout table (first ++ last)
      ∧ after.store.Stores layout table (first ++ p :: last)
      ∧ ∀ column ∈ schema.columns, ∀ given,
        (column.name, given) ∈ (columns.getD schema.names).zip values →
        given.coerce column.typeName column.name = .ok (Row.value p.2 column.name)
        ∧ ∀ useIndexes ids notes, ∃ part, p ∈ part
          ∧ (Engine.mk layout useIndexes).Selects ⟨after.store, ids, notes⟩ table schema
            [⟨column.name, .equal, given⟩] part (first ++ p :: last) := by
  rcases s with ⟨m, ids, notes⟩
  rcases h.indexed with ⟨d, c, rfl, hm, hd, hindexed, hkeeps⟩
  rcases Statement.insert_of_ofText hread with ⟨hnodup, hvalues⟩
  have hs : Surroundings.Shows ⟨m, ids, notes⟩ ⟨c, ids, notes⟩ := ⟨hm, rfl, rfl⟩
  rcases Engine.exists_run_of_call hd hread trivial hs hrun with ⟨schema, w', ht, hafter, hexecute⟩
  have hids : schema.KeepsIds := hkeeps table schema ht
  have hname := hd.wellFormed.schema_fits table schema ht
  rcases Engine.insert_inserts hd hindexed ht hids hnodup hvalues hexecute with
    ⟨p, hadds, hsupplies⟩
  have hinserts : d.Inserts layout table p c w'.store := hadds
  rcases exists_rows hinserts.describes ht hids with ⟨rows, hrows⟩
  rcases hinserts.exists_rows hname hrows with ⟨first, last, rfl, hbefore⟩
  refine ⟨schema, ht, p, first, last, hbefore.stores hm, hrows.stores hafter.entries, ?_⟩
  intro column hcolumn given hgiven
  have hcoerce := hsupplies column hcolumn given hgiven
  refine ⟨hcoerce, fun useIndexes ids notes => ?_⟩
  have hsame : Surroundings.Shows ⟨after.store, ids, notes⟩ ⟨w'.store, ids, notes⟩ :=
    ⟨hafter.entries, rfl, rfl⟩
  exact Engine.selects_inserted (w := ⟨w'.store, ids, notes⟩) hinserts ht hids hrows hcolumn hcoerce
    hsame

/-- A table of which no column has a literal in the form that it is written in. -/
def coercedTable : List (Option String) :=
  [some "CREATE TABLE t (a FLOAT, b BLOB)", some "CREATE INDEX i ON t(a)"]

/-- An integer among floats is found by an index, and a text among bytes without one. -/
theorem finds_inserted_coercedTable : ∃ after schema p rows among within,
    after = ((Engine.mk defaultLayout true).call (some "INSERT INTO t (b, a) VALUES ('x', 1)")
      (freshRun coercedTable).2).2
    ∧ p ∈ among ∧ (Engine.mk defaultLayout true).Selects after "t" schema
      [⟨"a", .equal, .int 1⟩] among rows
    ∧ p ∈ within ∧ (Engine.mk defaultLayout true).Selects after "t" schema
      [⟨"b", .equal, .text "x"⟩] within rows := by
  have hread : Statement.ofText (some "INSERT INTO t (b, a) VALUES ('x', 1)")
      = .ok (.insert "t" (some ["b", "a"]) [.text "x", .int 1]) := by decide +kernel
  have hruns : (∀ r ∈ (freshRun coercedTable).1, WithinLimits r)
      ∧ Tables.afterTexts (fun _ => none) coercedTable (freshRun coercedTable).1 "t" = some
        ⟨"t", [⟨"a", "FLOAT", true, false, .null⟩, ⟨"b", "BLOB", true, false, .null⟩], none⟩
      ∧ ((Engine.mk defaultLayout true).call (some "INSERT INTO t (b, a) VALUES ('x', 1)")
        (freshRun coercedTable).2).1 = .ok { affected := 1 } := by
    decide +kernel
  rcases hruns with ⟨hlimits, htable, hrun⟩
  -- What the surroundings are afterwards need not be computed.
  rcases hcall : (Engine.mk defaultLayout true).call (some "INSERT INTO t (b, a) VALUES ('x', 1)")
    (freshRun coercedTable).2 with ⟨out, store, ids, notes⟩
  rw [hcall] at hrun
  obtain rfl : out = .ok { affected := 1 } := hrun
  rcases (reached_freshRun (by decide +kernel) hlimits).finds_inserted hread hcall with
    ⟨schema, ht, p, first, last, -, -, hfinds⟩
  obtain rfl := Option.some.inj (htable.symm.trans ht)
  rcases (hfinds _ List.mem_cons_self (.int 1) (by decide)).2 true ids notes with
    ⟨among, hamong, hindexed⟩
  rcases (hfinds _ (List.mem_cons_of_mem _ List.mem_cons_self) (.text "x") (by decide)).2 true ids
    notes with ⟨within, hwithin, hscanned⟩
  exact ⟨_, _, p, _, among, within, rfl, hamong, hindexed, hwithin, hscanned⟩

end TableStore
