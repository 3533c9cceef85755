import TableStore.Proofs.Engine.FreeId
import TableStore.Proofs.Engine.Reached
import TableStore.Proofs.Engine.Signature

/-!
# Insertions Add Rows

An insertion adds one row and leaves all others as they are. This needs nothing but the
schema of the table. The store may have come about in any way: others may have written to
it, rows may have been given keys that look like ids, and its indexes need not agree with
its rows.

A row without a key is given an id that is drawn from a source. A source that counts does
not look at the store, so its ids may be those of rows, and the search goes on until one
is not. That it ends is not to be seen from the search, which could go on for as long as
ids are drawn. It ends because the ids are different, and so each of those that are taken
is taken by another row.

What is written after the row are its entries. They are in a family of keys of their own,
whatever the catalog may say about the indexes.

## Main definitions

* `IdSource.drawn`: The ids that a source gives in a run of draws.
* `Contents.SearchEnds`: How the search for the id of a new row ends.
* `Contents.AddsRow`: A store that has one row more.

## Theorems

* `IdSource.nodup_drawn`: A source that counts repeats no id of a table.
* `Engine.newRowId_counts`: The search for the id of a new row ends.
* `Engine.insert_adds`: What an insertion adds.
* `Contents.Declares.insertions_add_rows`: All of this, for every store with the schema.
-/

namespace TableStore

open Access

variable {layout : KeyLayout} {table : String} {schema : TableSchema} {c c' : Contents} {w : World}

namespace IdSource

/-- The ids that a source gives to draws for tables, each with its table. A draw may fail, and
    then there is none. -/
def drawn (source : IdSource) : List String → List (String × String)
  | [] => []
  | table :: rest =>
    match source.next table with
    | (.ok id, after) => (table, id) :: after.drawn rest
    | (.error _, after) => after.drawn rest

variable {start width : Int} {used : Members Int} {tables : List String}

/-- A source that counts gives a table ids from its next number on. -/
theorem exists_of_mem_drawn {id : String}
    (h : (table, id) ∈ (counter start width used).drawn tables) :
    ∃ n, (Members.get? used table).getD start ≤ n ∧ id = paddedText width n := by
  induction tables generalizing used with
  | nil => cases h
  | cons other rest ih =>
    set first := (Members.get? used other).getD start with hfirst
    -- A draw for the table itself moves its next number on, and others leave it.
    have hlater :
        (table, id) ∈ (counter start width (Members.set used other (first + 1))).drawn rest →
        ∃ n, (Members.get? used table).getD start ≤ n ∧ id = paddedText width n := by
      intro hmem
      rcases ih hmem with ⟨n, hn, hid⟩
      refine ⟨n, ?_, hid⟩
      rw [Members.get?_set] at hn
      split at hn
      · rename_i heq
        rw [Option.getD_some, hfirst] at hn
        rw [heq]
        omega
      · exact hn
    rw [drawn, next] at h
    by_cases hlimit : Text.withinDigitLimit first = true
    · rw [if_pos hlimit] at h
      rcases List.mem_cons.mp h with heq | hmem
      · rw [Prod.mk.injEq] at heq
        exact ⟨first, by rw [heq.1], heq.2⟩
      · exact hlater hmem
    · rw [if_neg hlimit] at h
      exact hlater h

/-- A source that counts repeats no id of a table. -/
theorem nodup_drawn (start width : Int) (used : Members Int) (tables : List String) :
    ((counter start width used).drawn tables).Nodup := by
  induction tables generalizing used with
  | nil => exact List.nodup_nil
  | cons table rest ih =>
    rw [drawn, next]
    set first := (Members.get? used table).getD start with hfirst
    by_cases hlimit : Text.withinDigitLimit first = true
    · rw [if_pos hlimit]
      refine List.nodup_cons.mpr ⟨fun hmem => ?_, ih _⟩
      rcases exists_of_mem_drawn hmem with ⟨n, hn, hid⟩
      rw [Members.get?_set, if_pos rfl, Option.getD_some, paddedText_injective hid] at hn
      omega
    · rw [if_neg hlimit]
      exact ih _

/-- An id is as long as it is padded to, if its number is not longer. -/
theorem length_encode_paddedText {n : Int} (hn : Text.withinDigitLimit n = true) :
    (Text.encode (paddedText width n)).length ≤ max width.toNat (Text.digitLimit + 1) := by
  -- All of its characters take one byte.
  have hascii : ∀ a ∈ (paddedText width n).toList, a.toNat < 128 := by
    intro a ha
    have hdigit : a.isDigit = true → a.toNat < 128 := fun h => by
      have hbounds := Text.isDigit_bounds h
      omega
    rw [paddedText, String.toList_ofList, List.mem_append, List.mem_append] at ha
    rcases ha with (hsign | hzero) | hrest
    · split at hsign
      · rw [List.mem_singleton.mp hsign]
        decide
      · cases hsign
    · rw [List.eq_of_mem_replicate hzero]
      decide
    · exact hdigit (Text.isDigit_toDigits hrest)
  have hlimit : (Nat.toDigits 10 n.natAbs).length ≤ Text.digitLimit := by
    simpa [Text.withinDigitLimit] using hn
  have hsign : (if n < 0 then ['-'] else []).length ≤ 1 := by
    split <;> simp
  rw [Text.encode, Text.length_encodeChars_ascii hascii, paddedText, String.toList_ofList,
    List.length_append, List.length_append, List.length_replicate]
  omega

end IdSource

/-- How the search for the id of a new row ends, when the source counts from `first`. The ids of
    `taken` numbers are passed over, each of them that of a row, and no row has the next. It
    is the id that is found, unless its number is too long for a text or it is padded to a
    length for which there is no place in a key. -/
structure Contents.SearchEnds (c : Contents) (layout : KeyLayout) (table : String)
    (width first : Int) (taken : Nat) (outcome : Except Fault String) : Prop where
  le_rowCount : taken ≤ c.rowCount layout table
  counted : c.Counted layout table width first taken
  ends : outcome = .ok (IdSource.paddedText width (first + taken))
        ∧ c.get? ((Slot.counted table width (first + taken)).key layout) = none
      ∨ outcome = .error .digitLimit ∧ Text.withinDigitLimit (first + taken) = false
      ∨ outcome = .error .componentTooLong ∧ (Key.componentLimit : Int) ≤ width

/-- A store that has one row more, under an id that no row had. -/
structure Contents.AddsRow (c : Contents) (layout : KeyLayout) (table id : String) (data : Bytes)
    (c' : Contents) : Prop where
  fresh : c.get? ((Slot.row table (Text.encode id)).key layout) = none
  stored : c'.get? ((Slot.row table (Text.encode id)).key layout) = some data
  kept : ∀ other key, Key.fits (Text.encode other) = true →
    Bytes.carries (layout.rowPrefix other) key = true →
    key ≠ (Slot.row table (Text.encode id)).key layout → c'.get? key = c.get? key

/-- A row that has no value in the column of the primary key, if there is one. -/
def TableSchema.Keyless (schema : TableSchema) (row : Row) : Prop :=
  ∀ key, schema.primaryKey = some key → (Row.value row key).isNull = true

theorem TableSchema.Keyless.primaryValue?_eq_none {row : Row} {found : Option Value}
    (h : schema.Keyless row)
    (hfound : primaryValue? schema.stored (Members.toFields row) = .ok found) : found = none := by
  rw [primaryValue?_stored, Except.ok.injEq] at hfound
  rw [← hfound, Option.bind_eq_none_iff]
  intro key hkey
  have hnull := h key hkey
  rw [Row.value] at hnull
  rcases hget : Members.get? row key with _ | v
  · rfl
  · rw [hget, Option.getD_some] at hnull
    rw [Option.filter_some, if_neg (by simp [hnull])]

namespace Engine

variable {engine : Engine}

/-- The search for the id of a new row ends, if ids are counted. -/
theorem newRowId_counts (hname : Key.fits (Text.encode table) = true) (start width : Int)
    (used : Members Int) (notes : List String) :
    ∃ (taken : Nat) (outcome : Except Fault String),
      (engine.newRowId table none).on ⟨c, .counter start width used, notes⟩
        = (outcome, ⟨c, .counter start width (Members.set used table
            ((Members.get? used table).getD start + taken + 1)), notes⟩)
      ∧ c.SearchEnds engine.layout table width ((Members.get? used table).getD start) taken
        outcome := by
  have hrun : (engine.newRowId table none).on ⟨c, .counter start width used, notes⟩
      = (engine.freeId table (c.entries.length + 1)).on ⟨c, .counter start width used, notes⟩ :=
    (looks_keyCount _).run_bind
  rw [hrun]
  rcases freeId_counts used (c.entries.length + 1) with
    ⟨taken, outcome, hsearch, hcounted, hends⟩ | ⟨-, hcounted⟩
  · refine ⟨taken, outcome, hsearch, hcounted.le_rowCount, hcounted, ?_⟩
    -- The search is over when an id is free, is too long for a text, or has no place in a key.
    rcases hends with ⟨hfound, -, hfree⟩ | hlimit | ⟨hlong, hlimit, hfits⟩
    · exact Or.inl ⟨hfound, hfree⟩
    · exact Or.inr (Or.inl hlimit)
    · refine Or.inr (Or.inr ⟨hlong, ?_⟩)
      -- The number alone fits, so it is the padding that is too long.
      have hle := @IdSource.length_encode_paddedText width _ hlimit
      by_contra hwidth
      refine hfits fun component hmem => ?_
      rcases List.mem_cons.mp hmem with rfl | hmem
      · exact hname
      · rw [List.mem_singleton.mp hmem, Key.fits_iff]
        have hdigits : Text.digitLimit + 1 < Key.componentLimit := by decide
        omega
  · -- All draws would be taken, and there are more of them than keys.
    exact absurd (hcounted.le_rowCount.trans Contents.rowCount_le) (by omega)

/-- The id of a row with a key is the text of the key. -/
theorem newRowId_key {v : Value} {id : String} {w' : World}
    (h : (engine.newRowId table (some v)).on w = (.ok id, w')) : id = v.toText := by
  have hyields : (engine.newRowId table (some v)).Yields w (fun _ _ => True)
      fun id _ => id = v.toText := by
    rw [newRowId]
    split
    · exact yields_fail trivial
    · refine Yields.outcome (fun _ _ => trivial) fun key _ => ?_
      refine Yields.look (looks_fetch key w) ?_
      rcases w.store.get? key with _ | data
      · exact yields_pure rfl
      · exact yields_fail trivial
  exact hyields.of_ok h

end Engine

/-- A place for an entry of a table. -/
def Slot.IsEntryIn (table : String) (slot : Slot) : Prop :=
  ∃ index value id, slot = .entry table index value id

/-- Changes to the entries of a table, in any of its indexes. -/
def Discipline.entriesIn (layout : KeyLayout) (table : String) : Discipline where
  meets _ _ := True
  puts key _ := ∃ slot : Slot, slot.Fits ∧ slot.IsEntryIn table ∧ key = slot.key layout
  deletes key := ∃ slot : Slot, slot.Fits ∧ slot.IsEntryIn table ∧ key = slot.key layout
  fails _ := True

theorem Discipline.changesEntries_entriesIn (index : String) :
    (Discipline.entriesIn layout table).ChangesEntries layout table index where
  puts hfits := ⟨_, hfits, ⟨_, _, _, rfl⟩, rfl⟩
  deletes hfits := ⟨_, hfits, ⟨_, _, _, rfl⟩, rfl⟩
  fails _ := trivial

/-- What changes entries of a table changes no other keys. -/
theorem Access.Obeys.entriesIn {α : Type} {x : Access α} {post : α → Prop}
    (hx : x.Obeys (.entriesIn layout table) post) (w : World) :
    w.store.SameExcept layout (Slot.IsEntryIn table) (x.on w).2.store := by
  refine (hx.run (fun c => w.store.SameExcept layout (Slot.IsEntryIn table) c)
    (fun _ _ _ _ _ => trivial) ?_ ?_ w (Contents.SameExcept.refl _ _)).1
  · rintro c _ value hsame ⟨slot, hfits, hslot, rfl⟩
    exact hsame.trans (Contents.SameExcept.insert hfits hslot value)
  · rintro c _ hsame ⟨slot, hfits, hslot, rfl⟩
    exact hsame.trans (Contents.SameExcept.erase hfits hslot)

/-- No key of a row is one of an entry. -/
theorem Contents.SameExcept.get?_rowPrefix (h : c.SameExcept layout (Slot.IsEntryIn table) c')
    {other : String} (hother : Key.fits (Text.encode other) = true) {key : Bytes}
    (hkey : Bytes.carries (layout.rowPrefix other) key = true) : c'.get? key = c.get? key := by
  refine h key fun slot hfits hslot heq => ?_
  rcases hslot with ⟨index, value, id, rfl⟩
  rw [heq, Slot.carries_rowPrefix hfits hother] at hkey
  rcases hkey with ⟨_, hrow⟩
  cases hrow

namespace Engine

variable {engine : Engine}

/-- The indexes of a table are looked up, whatever comes of it. -/
theorem looks_indexes_any (layout : KeyLayout) (table : String) (w : World) :
    ∃ found, (Catalog.indexes layout table).Looks w found :=
  ⟨_, (looks_lift _ w).bind fun start _ => (looks_entries start w).bind fun _ _ => looks_lift _ w⟩

/-- What an insertion does after it has stored the row changes entries only. What the catalog
    says about the indexes may be wrong, but entries are entries. -/
theorem enterRow_sameExcept (w : World) (row : Fields Value) (id : String) (result : QueryResult) :
    w.store.SameExcept engine.layout (Slot.IsEntryIn table) ((do
      let indexes ← Catalog.indexes engine.layout table
      engine.addEntries table row id indexes
      pure result : Access QueryResult).on w).2.store := by
  rcases looks_indexes_any engine.layout table w with ⟨fault | indexes, hlooks⟩
  · rw [hlooks.run_bind_error]
    exact Contents.SameExcept.refl _ _
  · rw [hlooks.run_bind]
    have hobeys : (engine.addEntries table row id indexes).Obeys (.entriesIn engine.layout table)
        fun _ => True :=
      obeys_addEntries (fun _ => trivial)
        (fun _ _ name _ => Discipline.changesEntries_entriesIn name) _ id
    have hall : (engine.addEntries table row id indexes >>= fun _ => pure result).Obeys
        (.entriesIn engine.layout table) fun _ => True :=
      hobeys.bind fun _ _ => obeys_pure trivial
    exact hall.entriesIn w

/-- What an insertion adds: a row that is filled as its columns ask for. -/
theorem insert_adds (h : w.store.Declares engine.layout table schema) (hids : schema.KeepsIds)
    {columns : Option (List String)} {values : List Value}
    (hnodup : ∀ names, columns = some names → names.Nodup) (hvalues : ∀ v ∈ values, v.IsDenoted) :
    (engine.insert table columns values).Yields w (fun _ _ => True) fun _ w' =>
      ∃ id row data, w.store.AddsRow engine.layout table id data w'.store
        ∧ Row.ofBytes data = .ok row
        ∧ schema.Fills ((columns.getD schema.names).zip values) id row
        ∧ (∀ key, schema.primaryKey = some key → (Row.value row key).isNull = false →
          id = (Row.value row key).toText)
        ∧ (schema.Keyless row → ∃ w₁, (engine.newRowId table none).on w = (.ok id, w₁)) := by
  refine (fileRow_files h hids hvalues).imp (fun _ _ _ => trivial) (fun _ _ hfiles => hfiles)
    |>.bind ?_
  rintro ⟨_, id⟩ w₁ ⟨supplied, row, data, hlength, hsupplied, rfl, hfiles,
    ⟨key, w₂, hkey, hdrawn, -⟩, hstore⟩
  dsimp only at hfiles hkey hdrawn hstore ⊢
  -- Entries are added after the row has been filed, and none of them is among the rows.
  have hadd := @enterRow_sameExcept table engine w₁ (Members.toFields row) id { affected := 1 }
  rcases hrun : (do
    let indexes ← Catalog.indexes engine.layout table
    engine.addEntries table (Members.toFields row) id indexes
    pure { affected := 1 } : Access QueryResult).on w₁ with ⟨fault | result, w₃⟩
  · exact Or.inl ⟨fault, w₃, hrun, trivial⟩
  rw [hrun, hstore] at hadd
  have hname := hfiles.fits.table_fits
  refine Or.inr ⟨result, w₃, hrun, id, row, data, ⟨hfiles.fresh, ?_, ?_⟩, hfiles.read,
    hfiles.fills h.wellFormed hnodup hlength hsupplied, fun p hp hnull => ?_, fun hkeyless => ?_⟩
  · rw [hadd.get?_rowPrefix hname ((Slot.carries_rowPrefix hfiles.fits hname).mpr ⟨_, rfl⟩),
      Contents.get?_insert_self]
  · intro other key hother hcarries hne
    rw [hadd.get?_rowPrefix hother hcarries, Contents.get?_insert_other _ _ hne]
  · rw [primaryValue?_toFields hkey hp hnull] at hdrawn
    exact newRowId_key hdrawn
  · rw [hkeyless.primaryValue?_eq_none hkey] at hdrawn
    exact ⟨w₂, hdrawn⟩

end Engine

/-- Insertions into a table, in every store that has its schema. A source that counts repeats no
    id of a table. So the search for the id of a row without a key ends, after no more ids than
    there are rows and one, with an id that no row has. And an insertion that succeeds
    adds one row, with a key or with an id that such a search has found, which is filled
    as its columns ask for, and keeps every other row of every table as it was. -/
theorem Contents.Declares.insertions_add_rows (h : c.Declares layout table schema)
    (hids : schema.KeepsIds) :
    (∀ start width used tables, ((IdSource.counter start width used).drawn tables).Nodup)
    ∧ (∀ useIndexes start width used notes, ∃ (taken : Nat) (outcome : Except Fault String),
      ((Engine.mk layout useIndexes).newRowId table none).on ⟨c, .counter start width used, notes⟩
        = (outcome, ⟨c, .counter start width (Members.set used table
            ((Members.get? used table).getD start + taken + 1)), notes⟩)
      ∧ c.SearchEnds layout table width ((Members.get? used table).getD start) taken outcome)
    ∧ ∀ useIndexes sql columns values, Statement.ofText sql = .ok (.insert table columns values) →
      ∀ m ids notes result after, m.entries = c.entries →
        (Engine.mk layout useIndexes).call sql ⟨m, ids, notes⟩ = (.ok result, after) →
        ∃ c' id row data, after.store.entries = c'.entries
          ∧ c.AddsRow layout table id data c'
          ∧ Row.ofBytes data = .ok row
          ∧ schema.Fills ((columns.getD schema.names).zip values) id row
          ∧ (∀ key, schema.primaryKey = some key → (Row.value row key).isNull = false →
            id = (Row.value row key).toText)
          ∧ (schema.Keyless row → ∃ w, ((Engine.mk layout useIndexes).newRowId table none).on
            ⟨c, ids, notes⟩ = (.ok id, w)) := by
  have hname : Key.fits (Text.encode table) = true := h.fits.table_fits
  refine ⟨IdSource.nodup_drawn, fun useIndexes start width used notes =>
    Engine.newRowId_counts hname start width used notes, ?_⟩
  intro useIndexes sql columns values hread m ids notes result after hm hcall
  rcases Statement.insert_of_ofText hread with ⟨hnodup, hvalues⟩
  have hs : Surroundings.Shows ⟨m, ids, notes⟩ ⟨c, ids, notes⟩ := ⟨hm, rfl, rfl⟩
  rcases (Engine.mk layout useIndexes).call_statement hread hs with ⟨hout, hafter⟩
  rw [hcall] at hout hafter
  have hdeclares : (⟨c, ids, notes⟩ : World).store.Declares layout table schema := h
  have hinsert : ((Engine.mk layout useIndexes).insert table columns values).Yields
      ⟨c, ids, notes⟩ _ _ := Engine.insert_adds hdeclares hids hnodup hvalues
  rcases hinsert.of_ok (Prod.ext hout.symm rfl) with
    ⟨id, row, data, hadds, hrow, hfills, hkeyed, hdrawn⟩
  exact ⟨_, id, row, data, hafter.entries, hadds, hrow, hfills, hkeyed, hdrawn⟩

/-- A table whose rows have taken ids that a source would give. -/
def keyedRows : List (Option String) :=
  [some "CREATE TABLE t (p INTEGER PRIMARY KEY, a TEXT)", some "INSERT INTO t VALUES (1, 'u')",
    some "INSERT INTO t VALUES (2, 'v')"]

/-- The schema of this table. -/
def keyedRowsSchema : TableSchema :=
  ⟨"t", [⟨"p", "INTEGER", false, true, .null⟩, ⟨"a", "TEXT", true, false, .null⟩], some "p"⟩

/-- The first two ids are those of rows with these keys, and so the third is that of the new
    row. -/
theorem insertions_add_rows_keyedRows : ∃ c c' row data,
    Contents.AddsRow c defaultLayout "t" "3" data c' ∧ Row.ofBytes data = .ok row
    ∧ keyedRowsSchema.Fills [("a", .text "w")] "3" row := by
  have hread : Statement.ofText (some "INSERT INTO t (a) VALUES ('w')")
      = .ok (.insert "t" (some ["a"]) [.text "w"]) := by decide +kernel
  have hruns : (∀ r ∈ (freshRun keyedRows).1, WithinLimits r)
      ∧ Tables.afterTexts (fun _ => none) keyedRows (freshRun keyedRows).1 "t"
        = some keyedRowsSchema
      ∧ ((Engine.mk defaultLayout true).call (some "INSERT INTO t (a) VALUES ('w')")
        (freshRun keyedRows).2).1 = .ok { affected := 1 }
      ∧ (((Engine.mk defaultLayout true).newRowId "t" none).run memoryBackend
        (freshRun keyedRows).2).1 = .ok "3" := by
    decide +kernel
  rcases hruns with ⟨hlimits, htable, hrun, hdrawn⟩
  rcases (reached_freshRun (by decide +kernel) hlimits).indexed with
    ⟨d, c, htables, hm, hd, -, hkeeps⟩
  rw [← htables] at htable
  -- What the surroundings are before and afterwards need not be computed.
  rcases hafter : (Engine.mk defaultLayout true).call (some "INSERT INTO t (a) VALUES ('w')")
    (freshRun keyedRows).2 with ⟨out, after⟩
  rcases hbefore : (freshRun keyedRows).2 with ⟨m, ids, notes⟩
  rw [hafter] at hrun
  rw [hbefore] at hm hdrawn hafter
  obtain rfl : out = .ok { affected := 1 } := hrun
  rcases ((hd.declares htable).insertions_add_rows (hkeeps _ _ htable)).2.2 true _ _ _ hread m ids
    notes _ _ hm hafter with ⟨c', id, row, data, -, hadds, hrow, hfills, -, hsearched⟩
  have hkeyless : keyedRowsSchema.Keyless row := by
    intro key hkey
    obtain rfl := Option.some.inj hkey
    have hfilled := hfills.filled _ List.mem_cons_self
    rw [← Except.ok.inj hfilled]
    rfl
  rcases hsearched hkeyless with ⟨w, hfound⟩
  rw [(Access.run_contents _ hm ids notes).1, hfound] at hdrawn
  obtain rfl := Except.ok.inj hdrawn
  exact ⟨c, c', row, data, hadds, hrow, hfills⟩

end TableStore
