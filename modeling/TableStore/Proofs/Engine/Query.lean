import TableStore.Proofs.Engine.Ordering
import TableStore.Proofs.Engine.Selection

/-!
# What Queries Return

A query returns what its clauses say, one after the other: the rows of the table
in the order of their keys, those among them that satisfy the conditions, sorted
by the columns that are asked for, without those before the offset and those
past the limit, each with the members that are asked for. Sorting is stable, and
since no stored value is NaN the order is total, so there is one result.

How the rows are found does not show in the result if the indexes of the table
agree with its rows. They can fall out of step when a change of a row hits a
limit half way: the old entry is gone, the new one has no key, and the row is as
it was. A query that goes through such an index misses the row.

## Main definitions

* `Row.Projects`: The members of a row that are asked for.
* `Memory.Answers`: The result of a query.

## Theorems

* `projects_projectRow`: What is returned of a row.
* `Engine.select_sorts`, `select_answers`: What a query ends in that ends in a result.
* `Engine.exists_select`: When it does.
* `Reached.call_select`: What an orderly query returns of the rows that it finds.
* `ordered_and_answered`: Rows have an order, and queries are answered by it.
-/

namespace TableStore

open Access

variable {d : Description} {layout : KeyLayout} {table : String} {schema : TableSchema}
  {conditions : List Condition} {w : World} {m : Memory}

/-- The members of a row that are asked for, under the names that they are asked
    for by and in the order of these. A column that the row does not have is left
    out. Of several columns under one name the last that the row has counts. -/
structure Row.Projects (asked : List SelectItem) (row shown : Row) : Prop where
  names : Members.names shown = ((asked.filter fun item =>
    (Members.get? row item.column).isSome).map SelectItem.outputName).eraseDups
  value : ∀ before item after v, asked = before ++ item :: after →
    Members.get? row item.column = some v →
    (∀ other ∈ after, other.outputName = item.outputName → Members.get? row other.column = none) →
    Members.get? shown item.outputName = some v

/-- The result of a query on a table. The rows that are stored and satisfy the
    conditions are sorted stably, for which there is one way, and a page of them is
    returned. -/
def Memory.Answers (layout : KeyLayout) (m : Memory) (table : String) (schema : TableSchema)
    (items : List SelectItem) (conditions : List Condition) (order : List OrderItem)
    (limit offset : Option Nat) (result : QueryResult) : Prop :=
  ∃ rows bound sorted, m.Stores layout table rows
    ∧ bindConditions schema.stored conditions = .ok bound
    ∧ StablySorted (compareRows order) ((rows.filter (isMatch bound)).map Prod.snd) sorted
    ∧ (∀ other,
      StablySorted (compareRows order) ((rows.filter (isMatch bound)).map Prod.snd) other →
      other = sorted)
    ∧ List.Forall₂ (Row.Projects (schema.asked items))
      ((sorted.drop (offset.getD 0)).take (limit.getD sorted.length)) result.rows
    ∧ result.columns = (schema.asked items).map (fun item => .string item.outputName)
    ∧ result.affected = 0

/-- What is returned of a row. -/
theorem projects_projectRow (asked : List SelectItem) (row : Row) :
    Row.Projects asked row (projectRow asked row) where
  names := by
    -- Both sides drop repeated names, so the names are compared with their repeats.
    rw [projectRow, Members.names_ofList]
    congr 1
    induction asked with
    | nil => rfl
    | cons item asked ih =>
      rcases hget : Members.get? row item.column with _ | v
      · simp [hget, ih]
      · simp [hget, ih]
  value before item after v hasked hget hlast := by
    rw [projectRow, hasked, List.filterMap_append, List.filterMap_cons, hget, Option.map_some]
    refine Members.get?_ofList _ _ ?_
    -- No later item sets the name again, as the row has none of their columns.
    intro hmem
    rcases List.mem_map.mp hmem with ⟨pair, hpair, hname⟩
    rcases List.mem_filterMap.mp hpair with ⟨other, hother, hsome⟩
    rcases Option.map_eq_some_iff.mp hsome with ⟨u, hu, rfl⟩
    exact absurd ((hlast other hother hname).symm.trans hu) (by simp)

/-- The rows of a page. -/
theorem pageRows_eq (limit offset : Option Nat) (rows : List Row) :
    pageRows limit offset rows = (rows.drop (offset.getD 0)).take (limit.getD rows.length) := by
  cases limit with
  | none =>
    have hlength : (rows.drop (offset.getD 0)).length ≤ rows.length := by
      rw [List.length_drop]
      omega
    exact (List.take_of_length_le hlength).symm
  | some n => rfl

/-- No stored row holds a value that has no place in an order. -/
theorem TableSchema.Accepts.isOrdered {id : String} {row : Row} (h : schema.Accepts id row)
    (order : List OrderItem) : TableStore.isOrdered order row = true := by
  refine List.all_eq_true.mpr fun item _ => ?_
  rw [(Row.isRegular_value h.regular item.column).ordered]
  rfl

/-- Indexes that hold what they should agree with the rows of their table. -/
theorem Description.Describes.indexedIn {c : Contents} (hd : d.Describes layout c)
    (hm : m.entries = c.entries) (ht : d.tables table = some schema) (hids : schema.KeepsIds)
    (hlists : ∀ index column, m.Defines layout table index column →
      m.Lists layout table index column) : d.IndexedIn layout c table := by
  intro index column hcovers
  exact (hlists index column (hd.defines hm hcovers)).entriesOf hd hm ht hids hcovers

namespace Engine

variable {engine : Engine} {rows : List (String × Row)}

/-- The rows that a query finds, if its engine can trust the indexes it uses. -/
theorem exists_found (hd : d.Describes engine.layout w.store) (ht : d.tables table = some schema)
    (hindexed : engine.useIndexes = true → d.IndexedIn engine.layout w.store table)
    (h : w.store.HoldsRows engine.layout table schema rows) (bound : List Condition) :
    ∃ r, (engine.findRows table bound).Looks w r ∧ Finds bound rows r := by
  have hname := hd.wellFormed.schema_fits table schema ht
  cases huse : engine.useIndexes with
  | true => exact looks_findRows hd (hindexed huse) hname h bound
  | false => exact ⟨_, looks_findRows_plain hname h huse bound, Finds.all bound rows⟩

/-- What a query returns of the rows of its table. -/
theorem select_sorts (hd : d.Describes engine.layout w.store)
    (ht : d.tables table = some schema)
    (hindexed : engine.useIndexes = true → d.IndexedIn engine.layout w.store table)
    (hrows : w.store.HoldsRows engine.layout table schema rows) {items : List SelectItem}
    {order : List OrderItem} {limit offset : Option Nat} {result : QueryResult}
    (hrun : ((engine.select table items conditions order limit offset).on w).1 = .ok result) :
    ∃ bound sorted, bindConditions schema.stored conditions = .ok bound
      ∧ StablySorted (compareRows order) ((rows.filter (isMatch bound)).map Prod.snd) sorted
      ∧ (∀ other,
        StablySorted (compareRows order) ((rows.filter (isMatch bound)).map Prod.snd) other →
        other = sorted)
      ∧ List.Forall₂ (Row.Projects (schema.asked items))
        ((sorted.drop (offset.getD 0)).take (limit.getD sorted.length)) result.rows
      ∧ result.columns = (schema.asked items).map (fun item => .string item.outputName)
      ∧ result.affected = 0 := by
  have hschema : (engine.select table items conditions order limit offset).on w = _ :=
    (Catalog.looks_requireSchema hd ht).run_bind
  -- Before the rows are found a query can fail in its conditions only.
  rcases hbound : bindConditions schema.stored conditions with fault | bound
  · rw [hschema, hbound, lift_error_bind, (looks_fail fault w : _ = _)] at hrun
    exact absurd hrun (by simp)
  · rcases exists_found hd ht hindexed hrows bound with ⟨r, hfound, hfinds⟩
    rcases r with fault | found
    · rw [hschema, hbound, lift_ok_bind, requireText_stored hd.wellFormed ht, lift_ok_bind,
        hfound.run_bind_error] at hrun
      exact absurd hrun (by simp)
    · -- Whichever way was taken, these are the rows that satisfy the conditions.
      obtain rfl := hfinds.eq_filter rfl
      have hselect : (engine.select table items conditions order limit offset).Looks w _ :=
        looks_select hd ht hbound hfound
      rw [(hselect : _ = _)] at hrun
      rw [← Except.ok.inj hrun]
      have hordered : ∀ row ∈ (rows.filter (isMatch bound)).map Prod.snd,
          isOrdered order row = true := by
        intro row hrow
        rcases List.mem_map.mp hrow with ⟨p, hp, rfl⟩
        exact (hrows.filed p (List.mem_of_mem_filter hp)).accepts.isOrdered order
      rcases stablySorted_sortRows hordered with ⟨hsorted, hunique⟩
      refine ⟨bound, _, rfl, hsorted, hunique, ?_, rfl, rfl⟩
      rw [pageRows_eq]
      exact List.forall₂_map_right_iff.mpr
        (List.forall₂_same.mpr fun row _ => projects_projectRow _ row)

/-- The rows that satisfy conditions are found, if these can be evaluated on every row, and if the
    indexes that may be used have places for what they are asked for. -/
theorem looks_filter (hd : d.Describes engine.layout w.store)
    (hname : Key.fits (Text.encode table) = true)
    (hindexed : engine.useIndexes = true → d.IndexedIn engine.layout w.store table)
    (hrows : w.store.HoldsRows engine.layout table schema rows) {bound : List Condition}
    (hmatches : ∀ p ∈ rows, ∃ matched, satisfies p.2 bound = .ok matched)
    (hplaced : engine.useIndexes = true → ∀ condition ∈ bound, condition.operator = .equal →
      ∀ index, d.covers table index = some condition.column →
      engine.layout.Places table index condition.value) :
    (engine.findRows table bound).Looks w (.ok ((rows.filter (isMatch bound)).map asFound)) := by
  rcases exists_matchesOf hmatches with ⟨found, hfound⟩
  cases huse : engine.useIndexes with
  | true => exact looks_findRows_placed hd (hindexed huse) hname hrows (hplaced huse) hfound
  | false =>
    have hlooks := looks_findRows_plain hname hrows huse bound
    rw [hfound, eq_filter_of_matchesOf hfound] at hlooks
    exact hlooks

/-- A query ends in a result, if its conditions can be evaluated on every row, and if the indexes
    that it may use have places for what they are asked for. -/
theorem exists_select (hd : d.Describes engine.layout w.store) (ht : d.tables table = some schema)
    (hindexed : engine.useIndexes = true → d.IndexedIn engine.layout w.store table)
    (hrows : w.store.HoldsRows engine.layout table schema rows) {bound : List Condition}
    (hbound : bindConditions schema.stored conditions = .ok bound)
    (hmatches : ∀ p ∈ rows, ∃ matched, satisfies p.2 bound = .ok matched)
    (hplaced : engine.useIndexes = true → ∀ condition ∈ bound, ∀ index,
      d.covers table index = some condition.column →
      engine.layout.Places table index condition.value)
    (items : List SelectItem) (order : List OrderItem) (limit offset : Option Nat) :
    ∃ result, ((engine.select table items conditions order limit offset).on w).1 = .ok result := by
  have hlooks := looks_filter hd (hd.wellFormed.schema_fits table schema ht) hindexed hrows hmatches
    fun huse condition hmem _ => hplaced huse condition hmem
  have hselect : (engine.select table items conditions order limit offset).Looks w _ :=
    looks_select hd ht hbound hlooks
  exact ⟨_, congrArg Prod.fst hselect⟩

/-- What a query ends in that ends in a result. -/
theorem select_answers (hd : d.Describes engine.layout w.store)
    (ht : d.tables table = some schema) (hids : schema.KeepsIds)
    (hindexed : engine.useIndexes = true → d.IndexedIn engine.layout w.store table)
    (hm : m.entries = w.store.entries) {items : List SelectItem} {order : List OrderItem}
    {limit offset : Option Nat} {result : QueryResult}
    (hrun : ((engine.select table items conditions order limit offset).on w).1 = .ok result) :
    m.Answers engine.layout table schema items conditions order limit offset result := by
  rcases exists_rows hd ht hids with ⟨rows, hrows⟩
  rcases select_sorts hd ht hindexed hrows hrun with ⟨bound, sorted, hpage⟩
  exact ⟨rows, bound, sorted, hrows.stores hm, hpage⟩

end Engine

/-- In an orderly run every index holds what it should, whether it is used or
    not. -/
theorem Reached.lists {tables : Tables} (h : Reached layout Orderly tables m)
    {index column : String} (hdefines : m.Defines layout table index column) : m.Lists layout table index column := by
  rcases h.indexed with ⟨d, c, -, hm, hd, hindexed, hkeeps⟩
  exact hindexed.lists hd hkeeps (hd.covers_of_defines hm hdefines) hm

/-- Every list of columns puts rows in an order, and a query for that order that
    ends in a result is answered by it, unless it goes through an index that does
    not hold what it should. -/
theorem ordered_and_answered (order : List OrderItem) :
    RanksRows order
    ∧ ∀ {allows : Tables → Except Fault QueryResult → Prop} {tables : Tables}
      {s after : Surroundings Memory} {layout : KeyLayout} {useIndexes : Bool} {sql : Option String}
      {table : String} {items : List SelectItem} {conditions : List Condition}
      {limit offset : Option Nat} {result : QueryResult},
      Reached layout allows tables s.store →
      (∀ schema, tables table = some schema → schema.KeepsIds) →
      (useIndexes = true → ∀ index column, s.store.Defines layout table index column →
        s.store.Lists layout table index column) →
      Statement.ofText sql = .ok (.select table items conditions order limit offset) →
      (Engine.mk layout useIndexes).call sql s = (.ok result, after) →
      ∃ schema, tables table = some schema
        ∧ s.store.Answers layout table schema items conditions order limit offset result := by
  refine ⟨ranksRows order, ?_⟩
  intro allows tables s after layout useIndexes sql table items conditions limit offset result
    h hkeeps hagree hread hrun
  rcases s with ⟨m, ids, notes⟩
  rcases h.described with ⟨d, c, rfl, hm, hd⟩
  have hs : Surroundings.Shows ⟨m, ids, notes⟩ ⟨c, ids, notes⟩ := ⟨hm, rfl, rfl⟩
  have hout := (Engine.call_statement ⟨layout, useIndexes⟩ hread hs).1
  rw [hrun] at hout
  rcases ht : d.tables table with _ | schema
  · -- A query of a table that is not declared has no result.
    have hmissing := @Engine.looks_missing d ⟨c, ids, notes⟩ ⟨layout, useIndexes⟩ hd
      (.select table items conditions order limit offset) trivial ht
    rw [(hmissing : _ = _)] at hout
    exact absurd hout (by simp)
  · have hids := hkeeps schema ht
    refine ⟨schema, rfl, ?_⟩
    exact @Engine.select_answers d table schema conditions ⟨c, ids, notes⟩ m ⟨layout, useIndexes⟩
      hd ht hids (fun huse => hd.indexedIn hm ht hids (hagree huse)) hm items order limit offset
      result hout.symm

/-- What a query returns of the rows that it finds, in an orderly run. -/
theorem Reached.call_select {tables : Tables} {s : Surroundings Memory} {useIndexes : Bool}
    {sql : Option String} {items : List SelectItem} {order : List OrderItem}
    {limit offset : Option Nat} {bound : List Condition} {part : List (String × Row)}
    (h : Reached layout Orderly tables s.store)
    (hread : Statement.ofText sql = .ok (.select table items conditions order limit offset))
    (ht : tables table = some schema) (hbound : bindConditions schema.stored conditions = .ok bound)
    (hfound : (((Engine.mk layout useIndexes).findRows table bound).run memoryBackend s).1
      = .ok (part.map asFound)) :
    ((Engine.mk layout useIndexes).call sql s).1 = .ok {
      rows := (pageRows limit offset (sortRows order (part.map Prod.snd))).map
        (projectRow (schema.asked items))
      columns := (schema.asked items).map fun item => .string item.outputName } := by
  rcases s with ⟨m, ids, notes⟩
  rcases h.indexed with ⟨d, c, rfl, hm, hd, hindexed, hkeeps⟩
  have hs : Surroundings.Shows ⟨m, ids, notes⟩ ⟨c, ids, notes⟩ := ⟨hm, rfl, rfl⟩
  have hids := hkeeps table schema ht
  rcases exists_rows (w := ⟨c, ids, notes⟩) hd ht hids with ⟨rows, hrows⟩
  rcases @Engine.exists_found d table schema ⟨c, ids, notes⟩ ⟨layout, useIndexes⟩ rows hd ht
    (fun _ => hindexed table) hrows bound with ⟨r, hlooks, -⟩
  -- The same rows are found on the bare contents.
  have hr := (run_memory ((Engine.mk layout useIndexes).findRows table bound) hs).1
  rw [hfound, (hlooks : _ = _)] at hr
  obtain rfl : Except.ok (part.map asFound) = r := hr
  have hselect : ((Engine.mk layout useIndexes).select table items conditions order limit
      offset).Looks ⟨c, ids, notes⟩ _ := Engine.looks_select hd ht hbound hlooks
  rw [(Engine.call_statement ⟨layout, useIndexes⟩ hread hs).1]
  exact congrArg Prod.fst hselect

/-- A table with an index and rows that are alike but for their ids. -/
def repetitiveTable : List (Option String) :=
  [some "CREATE TABLE t (a INTEGER)", some "CREATE INDEX i ON t(a)",
    some "INSERT INTO t VALUES (1)", some "INSERT INTO t VALUES (1)",
    some "INSERT INTO t VALUES (2)", some "INSERT INTO t VALUES (1)"]

theorem reached_repetitiveTable : Reached defaultLayout Orderly
    (Tables.afterTexts (fun _ => none) repetitiveTable (freshRun repetitiveTable).1)
    (freshRun repetitiveTable).2.store :=
  reached_freshRun (by decide +kernel) (by decide +kernel)

/-- A query that goes through the index, for the page after the row that was
    added last. -/
def earlierQuery : Option String :=
  some "SELECT _id AS w FROM t WHERE a = 1 ORDER BY _id DESC LIMIT 2 OFFSET 1"

theorem ordered_and_answered_repetitiveTable : ∃ schema,
    (freshRun repetitiveTable).2.store.Answers defaultLayout "t" schema [⟨"_id", some "w"⟩]
      [⟨"a", .equal, .int 1⟩] [⟨"_id", true⟩] (some 2) (some 1)
      { rows := [[("w", .text "2")], [("w", .text "1")]], columns := [.string "w"] } := by
  have hread : Statement.ofText earlierQuery = .ok (.select "t" [⟨"_id", some "w"⟩]
      [⟨"a", .equal, .int 1⟩] [⟨"_id", true⟩] (some 2) (some 1)) := by
    decide +kernel
  have ht : Tables.afterTexts (fun _ => none) repetitiveTable (freshRun repetitiveTable).1 "t"
      = some ⟨"t", [⟨"a", "INTEGER", true, false, .null⟩], none⟩ := by
    decide +kernel
  have hfound : (((Engine.mk defaultLayout true).findRows "t" [⟨"a", .equal, .int 1⟩]).run
      memoryBackend (freshRun repetitiveTable).2).1
      = .ok ([("1", [("a", .int 1), ("_id", .text "1")]),
        ("2", [("a", .int 1), ("_id", .text "2")]),
        ("4", [("a", .int 1), ("_id", .text "4")])].map asFound) := by
    decide +kernel
  have hrun : ((Engine.mk defaultLayout true).call earlierQuery (freshRun repetitiveTable).2).1
      = .ok { rows := [[("w", .text "2")], [("w", .text "1")]], columns := [.string "w"] } := by
    rw [reached_repetitiveTable.call_select hread ht (by decide +kernel) hfound]
    cbv
  have hkeeps : ∀ schema, Tables.afterTexts (fun _ => none) repetitiveTable
      (freshRun repetitiveTable).1 "t" = some schema → schema.KeepsIds := by
    rcases reached_repetitiveTable.indexed with ⟨d, -, htables, -, -, -, hkeeps⟩
    rw [← htables]
    exact hkeeps "t"
  rcases hcall : (Engine.mk defaultLayout true).call earlierQuery (freshRun repetitiveTable).2 with
    ⟨r, after⟩
  rw [hcall] at hrun
  obtain rfl : r = _ := hrun
  rcases (ordered_and_answered [⟨"_id", true⟩]).2 reached_repetitiveTable hkeeps
    (fun _ _ _ hdefines => reached_repetitiveTable.lists hdefines) hread hcall with
    ⟨schema, -, hanswers⟩
  exact ⟨schema, hanswers⟩

end TableStore
