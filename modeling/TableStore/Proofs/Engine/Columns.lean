import TableStore.Proofs.Engine.Identity
import TableStore.Proofs.Engine.Query
import TableStore.Proofs.Engine.SoundRows
import TableStore.Proofs.Result.Table
import TableStore.Result.Format

/-!
# What Stands Under a Column

A result has its columns by position and its rows by name. The two go together
as long as the names of the columns are different, but a query may ask for two
items under one name, and nothing refuses that: an insertion must not name a
column twice, nor may an update or the definition of a table. Then the result
has a column for each of the items, and a row has one value for both, which is
that of the last of them whose column the row has. A table of the result shows
it in both places.

So an item keeps its own value exactly as far as no later item of its name has
another one. This is said of every store that is reached and without asking how
the rows were found, since a query returns nothing but rows that are stored.

## Main definitions

* `Row.lastAsked`: The value of the last item of a name.
* `Row.Shows`: What is returned of a row, item by item.
* `Memory.StoresRow`: A row that is stored in a table.

## Theorems

* `get?_projectRow`: What is returned under a name.
* `Row.lastAsked_own`: When an item keeps its own value.
* `Engine.obeys_select_items`: A query returns rows that it has found.
* `QueryResult.toTable_eq`: The table of a result.
* `Reached.selects_stored`: What a query returns is of stored rows.
* `Reached.columns_keep_values`: What stands under the columns of a result.
* `columns_share_value`: Two items under one name.
-/

namespace TableStore

open Access

variable {d : Description} {layout : KeyLayout} {table : String} {items : List SelectItem} {row : Row}

/-- The value of the last of the items under a name whose column the row has. -/
def Row.lastAsked (items : List SelectItem) (row : Row) (name : String) : Option Value :=
  ((items.filter fun item => item.outputName = name).filterMap fun item =>
    Members.get? row item.column).getLast?

/-- What is returned of a row. Under each name stands the value of the last item, and an item
    whose column the row has keeps its own value if no later item of its name has another. -/
structure Row.Shows (items : List SelectItem) (row shown : Row) : Prop where
  last : ∀ name, Members.get? shown name = Row.lastAsked items row name
  own : ∀ (k : Nat) item v, items[k]? = some item → Members.get? row item.column = some v →
    (∀ (j : Nat) other u, k < j → items[j]? = some other → other.outputName = item.outputName →
      Members.get? row other.column = some u → u = v) →
    Members.get? shown item.outputName = some v

/-- A row that is stored in a table, under whatever id. -/
def Memory.StoresRow (layout : KeyLayout) (m : Memory) (table : String) (row : Row) : Prop :=
  ∃ id key data, layout.rowKey? table id = .ok key ∧ lookupEntry key m.entries = some data
    ∧ Row.ofBytes data = .ok row

/-- What is returned under a name. -/
theorem get?_projectRow (items : List SelectItem) (row : Row) (name : String) :
    Members.get? (projectRow items row) name = Row.lastAsked items row name := by
  rw [projectRow, Members.get?_ofList_eq, Row.lastAsked, List.filter_filterMap,
    List.map_filterMap, List.filterMap_filter]
  congr 1
  refine List.filterMap_congr fun item _ => ?_
  rcases Members.get? row item.column with _ | v
  · simp
  · by_cases h : item.outputName = name <;> simp [h]

/-- An item keeps its own value if no later item of its name has another. -/
theorem Row.lastAsked_own {before after : List SelectItem} {item : SelectItem} {v : Value}
    (hget : Members.get? row item.column = some v)
    (hafter : ∀ other ∈ after, other.outputName = item.outputName → ∀ u,
      Members.get? row other.column = some u → u = v) :
    lastAsked (before ++ item :: after) row item.outputName = some v := by
  have hlater : ∀ u ∈ (after.filter fun other => other.outputName = item.outputName).filterMap
      (fun other => Members.get? row other.column), u = v := by
    intro u hu
    rcases List.mem_filterMap.mp hu with ⟨other, hother, hvalue⟩
    rcases List.mem_filter.mp hother with ⟨hmem, hname⟩
    exact hafter other hmem (of_decide_eq_true hname) u hvalue
  rw [lastAsked, List.filter_append, List.filter_cons, if_pos (decide_eq_true rfl),
    List.filterMap_append, List.filterMap_cons, hget, List.getLast?_append,
    List.getLast?_eq_some_getLast (List.cons_ne_nil _ _), Option.some_or, Option.some.injEq]
  rcases List.mem_cons.mp (List.getLast_mem (List.cons_ne_nil v _)) with hv | hmem
  · exact hv
  · exact hlater _ hmem

theorem shows_projectRow (items : List SelectItem) (row : Row) :
    Row.Shows items row (projectRow items row) where
  last := get?_projectRow items row
  own k item v hitem hget hlater := by
    rcases List.getElem?_eq_some_iff.mp hitem with ⟨hk, hkth⟩
    have hsplit : items.take k ++ item :: items.drop (k + 1) = items := by
      rw [← hkth, ← List.drop_eq_getElem_cons hk, List.take_append_drop]
    rw [get?_projectRow, ← hsplit]
    refine Row.lastAsked_own hget fun other hother hname u hu => ?_
    rcases List.mem_iff_getElem?.mp hother with ⟨i, hi⟩
    rw [List.getElem?_drop] at hi
    exact hlater (k + 1 + i) other u (by omega) hi hname hu

/-- Nothing is returned of a row but its own values. -/
theorem Row.IsSound.hasText_projectRow (h : row.IsSound) (items : List SelectItem) (name : String) :
    (Row.value (projectRow items row) name).hasText = true := by
  rw [Row.value, get?_projectRow]
  rcases hlast : Row.lastAsked items row name with _ | v
  · rfl
  · rcases List.mem_filterMap.mp (List.mem_of_getLast? hlast) with ⟨item, -, hget⟩
    exact List.all_eq_true.mp h.texts _ (Members.mem_of_get? hget)

theorem Row.IsSound.isOrdered (h : row.IsSound) (order : List OrderItem) :
    TableStore.isOrdered order row = true := by
  refine List.all_eq_true.mpr fun item _ => ?_
  rw [(Row.isRegular_value h.regular item.column).ordered]
  rfl

/-- The rows of a page are among those that were found. -/
theorem mem_of_mem_page {order : List OrderItem} {limit offset : Option Nat} {rows : List Row}
    (h : ∀ row ∈ rows, row.IsSound) (hrow : row ∈ pageRows limit offset (sortRows order rows)) :
    row ∈ rows := by
  rw [pageRows_eq] at hrow
  have hsorted := (stablySorted_sortRows fun row hrow => (h row hrow).isOrdered order).1
  exact hsorted.perm.mem_iff.mp (List.mem_of_mem_drop (List.mem_of_mem_take hrow))

/-- The table of a result whose columns are named by texts. -/
theorem QueryResult.toTable_eq {result : QueryResult} {names : List String}
    (hcolumns : result.columns = names.map .string) (hnames : names ≠ [])
    (htexts : ∀ shown ∈ result.rows, ∀ name ∈ names, (Row.value shown name).hasText = true)
    (title : String) :
    result.toTable title = .ok (String.ofList (tableHeader title result.rows.length names
      ++ joinWith ';' (result.rows.map (renderRow names)))) := by
  have hread : result.columns.mapM Json.requireText = .ok names := by
    rw [hcolumns]
    exact mapM_map_eq_ok fun _ _ => rfl
  have hgiven : names.isEmpty = false := List.isEmpty_eq_false_iff.mpr hnames
  rw [toTable, hread, ok_bind, hgiven, if_neg Bool.false_ne_true, renderTable_eq htexts]

namespace Engine

variable {engine : Engine} {dis : Discipline} {conditions : List Condition}
  {order : List OrderItem} {limit offset : Option Nat}

/-- A query for given items returns a page of the rows that it has found. -/
theorem obeys_select_items (h : d.Serves engine.layout table dis) (hwell : d.WellFormed)
    (hitems : items ≠ []) :
    (engine.select table items conditions order limit offset).Obeys dis fun result =>
      ∃ found : List (Value × Row), (∀ p ∈ found, dis.Finds engine.layout table p)
        ∧ result = {
          rows := (pageRows limit offset (sortRows order (found.map Prod.snd))).map
            (projectRow items)
          columns := items.map fun item => .string item.outputName } := by
  refine (Catalog.obeys_requireSchema h hwell table).bind ?_
  rintro stored ⟨schema, ht, rfl⟩
  refine (h.outcome fun _ _ => trivial).bind fun bound _ => ?_
  rw [requireText_stored hwell ht]
  refine (obeys_findRows h).bind fun found hfound => ?_
  dsimp only
  rw [if_neg (by rwa [List.isEmpty_iff])]
  exact obeys_pure ⟨found, hfound, rfl⟩

end Engine

section

variable {allows : Tables → Except Fault QueryResult → Prop} {tables : Tables}
  {s : Surroundings Memory} {useIndexes : Bool} {sql : Option String} {conditions : List Condition}
  {order : List OrderItem} {limit offset : Option Nat} {result : QueryResult}

/-- A query for given items returns those of rows that are sound and stored. -/
theorem Reached.selects_stored (h : Reached layout allows tables s.store)
    (hread : Statement.ofText sql = .ok (.select table items conditions order limit offset))
    (hitems : items ≠ []) (hrun : ((Engine.mk layout useIndexes).call sql s).1 = .ok result) :
    ∃ rows : List Row, (∀ row ∈ rows, row.IsSound ∧ s.store.StoresRow layout table row)
      ∧ result = {
        rows := rows.map (projectRow items)
        columns := items.map fun item => .string item.outputName } := by
  rcases s with ⟨m, ids, notes⟩
  rcases h.described with ⟨d, c, -, hm, hd⟩
  have hs : Surroundings.Shows ⟨m, ids, notes⟩ ⟨c, ids, notes⟩ := ⟨hm, rfl, rfl⟩
  rw [(Engine.call_statement ⟨layout, useIndexes⟩ hread hs).1] at hrun
  -- What is found is sound and was stored before the query, which changes no rows.
  let law : Bytes → Bytes → Prop := fun id data =>
    c.get? ((Slot.row table id).key layout) = some data ∧ SoundData id data
  have hlaw : c.EveryRow layout table law :=
    fun id data hfits hget => ⟨hget, h.sound hm table id data hfits hget⟩
  have hobeys : ∀ {dis : Discipline}, d.Serves layout table dis → _ := fun hserves =>
    @Engine.obeys_select_items d table items ⟨layout, useIndexes⟩ _ conditions order limit offset
      hserves hd.wellFormed hitems
  rcases (Access.Obeys.keeping (w := ⟨c, ids, notes⟩) (hobeys (d.changes_serves layout table))
    (hobeys (d.keeping_serves layout table law)) hd hlaw).2 result hrun with ⟨found, hfinds, rfl⟩
  have hstored : ∀ row ∈ found.map Prod.snd, row.IsSound ∧ m.StoresRow layout table row := by
    intro row hrow
    rcases List.mem_map.mp hrow with ⟨p, hp, rfl⟩
    rcases hfinds p hp with ⟨id, data, hfits, ⟨-, hmeets⟩, hdata, -⟩
    rcases hmeets id hfits rfl with ⟨hget, other, hother, hsound⟩
    obtain rfl := Except.ok.inj (hother.symm.trans hdata)
    exact ⟨hsound, id, _, data, KeyLayout.rowKey?_fits hfits, by rw [hm]; exact hget, hdata⟩
  exact ⟨_, fun row hrow =>
    hstored row (mem_of_mem_page (fun row hrow => (hstored row hrow).1) hrow), rfl⟩

/-- What stands under the columns of the result of a query for given items. Each row of the result
    comes from a stored row, and a table of the result shows for each item what the row has under
    the name of its column. -/
theorem Reached.columns_keep_values (h : Reached layout allows tables s.store)
    (hread : Statement.ofText sql = .ok (.select table items conditions order limit offset))
    (hitems : items ≠ []) (hrun : ((Engine.mk layout useIndexes).call sql s).1 = .ok result) :
    ∃ rows, (∀ row ∈ rows, s.store.StoresRow layout table row)
      ∧ List.Forall₂ (Row.Shows items) rows result.rows
      ∧ result.columns = (items.map fun item => .string item.outputName)
      ∧ ∀ title, result.toTable title = .ok (String.ofList
        (tableHeader title result.rows.length (items.map SelectItem.outputName)
          ++ joinWith ';' (result.rows.map fun shown =>
            joinWith ',' (items.map fun item => cellOf (Row.value shown item.outputName))))) := by
  rcases h.selects_stored hread hitems hrun with ⟨rows, hrows, rfl⟩
  have htexts : ∀ shown ∈ rows.map (projectRow items), ∀ name ∈ items.map SelectItem.outputName,
      (Row.value shown name).hasText = true := by
    intro shown hshown name _
    rcases List.mem_map.mp hshown with ⟨row, hrow, rfl⟩
    exact (hrows row hrow).1.hasText_projectRow items name
  refine ⟨rows, fun row hrow => (hrows row hrow).2, List.forall₂_map_right_iff.mpr
    (List.forall₂_same.mpr fun row _ => shows_projectRow items row), rfl, fun title => ?_⟩
  have hcells : renderRow (items.map SelectItem.outputName)
      = fun shown => joinWith ',' (items.map fun item => cellOf (Row.value shown item.outputName)) := by
    funext shown
    rw [renderRow, List.map_map]
    rfl
  rw [← hcells]
  refine QueryResult.toTable_eq ?_ (fun hnil => hitems (List.map_eq_nil_iff.mp hnil)) htexts title
  exact (List.map_map (g := Json.string)).symm

end

/-- The row of the table with an index. -/
theorem storesRow_indexedTable : (freshRun indexedTable).2.store.StoresRow defaultLayout "t"
    [("a", .int 1), ("_id", .text "1")] := by
  have hrow : (freshRun indexedTable).2.store.HoldsRow defaultLayout "t" "1"
      [("a", .int 1), ("_id", .text "1")] := by
    decide +kernel
  rcases hrow with ⟨key, data, hkey, hget, hread⟩
  exact ⟨_, key, data, hkey, hget, hread⟩

/-- What a query of the table with an index returns. -/
theorem call_indexedTable {sql : Option String} {items : List SelectItem}
    (hread : Statement.ofText sql = .ok (.select "t" items [] [] none none)) (hitems : items ≠ []) :
    ((Engine.mk defaultLayout true).call sql (freshRun indexedTable).2).1 = .ok {
      rows := [projectRow items [("a", .int 1), ("_id", .text "1")]]
      columns := items.map fun item => .string item.outputName } := by
  -- Both are evaluated at once, since each would begin with the run.
  have hrun : Tables.afterTexts (fun _ => none) indexedTable (freshRun indexedTable).1 "t"
        = some ⟨"t", [⟨"a", "INTEGER", true, false, .null⟩], none⟩
      ∧ (((Engine.mk defaultLayout true).findRows "t" []).run memoryBackend
        (freshRun indexedTable).2).1
        = .ok ([("1", [("a", .int 1), ("_id", .text "1")])].map asFound) := by
    decide +kernel
  rcases hrun with ⟨ht, hfound⟩
  rw [reached_indexedTable.call_select hread ht rfl hfound, TableSchema.asked,
    if_neg (by rwa [List.isEmpty_iff]), sortRows_nil]
  rfl

/-- A column that is asked for twice under one name keeps its value in both places. -/
theorem columns_keep_values_indexedTable :
    Statement.ofText (some "SELECT a AS x, _id, a AS x FROM t")
        = .ok (.select "t" [⟨"a", some "x"⟩, ⟨"_id", none⟩, ⟨"a", some "x"⟩] [] [] none none)
      ∧ ∃ rows result, ((Engine.mk defaultLayout true).call
          (some "SELECT a AS x, _id, a AS x FROM t") (freshRun indexedTable).2).1 = .ok result
        ∧ (∀ row ∈ rows, (freshRun indexedTable).2.store.StoresRow defaultLayout "t" row)
        ∧ List.Forall₂ (Row.Shows [⟨"a", some "x"⟩, ⟨"_id", none⟩, ⟨"a", some "x"⟩]) rows result.rows
        ∧ result.toTable "t" = .ok "t[1]{x,_id,x}:1,1,1" := by
  have hread : Statement.ofText (some "SELECT a AS x, _id, a AS x FROM t")
      = .ok (.select "t" [⟨"a", some "x"⟩, ⟨"_id", none⟩, ⟨"a", some "x"⟩] [] [] none none) := by
    decide +kernel
  have hrun := call_indexedTable hread (List.cons_ne_nil _ _)
  rcases reached_indexedTable.columns_keep_values hread (List.cons_ne_nil _ _) hrun with
    ⟨rows, hstored, hshows, -, htable⟩
  refine ⟨hread, rows, _, hrun, hstored, hshows, (htable "t").trans ?_⟩
  decide +kernel

/-- Two items under one name have one value, which is not that of the first of them. -/
theorem columns_share_value :
    Reached defaultLayout Orderly
        (Tables.afterTexts (fun _ => none) indexedTable (freshRun indexedTable).1)
        (freshRun indexedTable).2.store
      ∧ (freshRun indexedTable).2.store.StoresRow defaultLayout "t"
        [("a", .int 1), ("_id", .text "1")]
      ∧ ((Engine.mk defaultLayout true).call (some "SELECT a AS x, _id AS x FROM t")
          (freshRun indexedTable).2).1
        = .ok { rows := [[("x", .text "1")]], columns := [.string "x", .string "x"] } := by
  have hread : Statement.ofText (some "SELECT a AS x, _id AS x FROM t")
      = .ok (.select "t" [⟨"a", some "x"⟩, ⟨"_id", some "x"⟩] [] [] none none) := by
    decide +kernel
  refine ⟨reached_indexedTable, storesRow_indexedTable, ?_⟩
  exact call_indexedTable hread (List.cons_ne_nil _ _)

end TableStore
