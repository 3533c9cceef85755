import TableStore.Proofs.Engine.TableChanges

/-!
# Rows That Are Selected

A removal or an update finds its rows before it changes the first of them, and
it finds them as a query with the same conditions does. So what it changes are
the rows that the query would have returned, each of them once, whatever the
change does to the values that the conditions ask for and to the indexes that
the rows were found by.

A removal that is repeated finds nothing. What it looks at the second time it
has looked at the first time too, and what it looks at is left over because it
does not satisfy the conditions. So the second removal cannot fail either, not
even if the first one has passed by rows that it could not have compared.

## Main definitions

* `Row.shown`: What a query for all columns returns of a row.
* `TableSchema.asked`: What a query asks for.
* `Engine.Selects`: The rows of a table that satisfy conditions.

## Theorems

* `Engine.looks_select`: What a query returns of the rows that it finds.
* `Reached.changes_selected`: What removals and updates change.
-/

namespace TableStore

open Access

variable {d : Description} {layout : KeyLayout} {table : String} {schema : TableSchema}
  {rows part : List (String × Row)} {conditions bound : List Condition} {w w' : World}

/-- What a query for all columns returns of a row: all of it but its id. -/
def Row.shown (row : Row) : Row :=
  row.filter fun member => member.1 ≠ rowIdMember

/-- The rows of a table that satisfy conditions. A query for all columns returns
    them. -/
structure Engine.Selects (engine : Engine) (s : Surroundings Memory) (table : String)
    (schema : TableSchema) (conditions : List Condition) (part rows : List (String × Row)) :
    Prop where
  stores : s.store.Stores engine.layout table rows
  selected : ∃ bound, bindConditions schema.stored conditions = .ok bound
    ∧ part = rows.filter (isMatch bound)
  shown : ∀ query, Statement.ofText query = .ok (.select table [] conditions [] none none) →
    (engine.call query s).1 = .ok {
      rows := part.map fun p => p.2.shown, columns := schema.stored.columnNames }

/-- Members are the same when they are looked up by their names. -/
theorem Members.filterMap_names {α : Type} {members part : Members α}
    (hnodup : (Members.names members).Nodup) (hpart : part ⊆ members) :
    (Members.names part).filterMap (fun name => (Members.get? members name).map (Prod.mk name))
      = part := by
  rw [names, List.filterMap_map]
  conv_rhs => rw [← List.filterMap_some (l := part)]
  refine List.filterMap_congr fun member hmember => ?_
  rw [Function.comp, get?_of_mem hnodup (hpart hmember)]
  rfl

theorem itemsOf_names (names : List String) :
    itemsOf (names.map Json.string) = names.map fun name => ⟨name, none⟩ := by
  rw [itemsOf, List.filterMap_map, ← List.filterMap_eq_map]
  rfl

/-- The columns of a row are all of it but its id. -/
theorem TableSchema.Accepts.projectRow {id : String} {row : Row} (h : schema.Accepts id row)
    (hwell : schema.WellFormed) (hids : schema.KeepsIds) :
    TableStore.projectRow (itemsOf schema.stored.columnNames) row = row.shown := by
  have hnodup := h.names_nodup hwell hids
  have hnames : Members.names row.shown = schema.names := by
    have hfilter : Members.names row.shown
        = (Members.names row).filter fun name => name ≠ rowIdMember := by
      rw [Members.names, Members.names, Row.shown, List.filter_map]
      rfl
    rw [hfilter, h.names, List.filter_append, List.filter_eq_self.mpr]
    · simp
    · -- The member that is left out is none of the columns.
      intro name hname
      rw [decide_eq_true_eq]
      rintro rfl
      exact hids hname
  have hshown : row.shown ⊆ row := List.filter_subset_self row
  have hmembers := Members.filterMap_names hnodup hshown
  rw [hnames] at hmembers
  rw [TableStore.projectRow, columnNames_stored, itemsOf_names, List.filterMap_map]
  refine (congrArg Members.ofList hmembers).trans (Members.ofList_of_nodup _ ?_)
  exact hnodup.sublist (List.filter_sublist.map _)

/-- What a query asks for: the given items, and without any all columns of the
    table. -/
def TableSchema.asked (schema : TableSchema) (items : List SelectItem) : List SelectItem :=
  if items.isEmpty then schema.names.map fun name => ⟨name, none⟩ else items

/-- Rows that are sorted by nothing stay in their order. -/
theorem sortRows_nil (rows : List Row) : sortRows [] rows = rows := by
  have hordered : rows.all (isOrdered []) = true := List.all_eq_true.mpr fun row _ => rfl
  rw [sortRows, if_pos hordered]
  exact List.mergeSort_of_pairwise (List.pairwise_of_forall fun _ _ => rfl)

namespace Engine

variable {engine : Engine}

/-- What a query returns of the rows that it finds. -/
theorem looks_select (hd : d.Describes engine.layout w.store) (ht : d.tables table = some schema)
    {items : List SelectItem} {order : List OrderItem} {limit offset : Option Nat}
    (hbound : bindConditions schema.stored conditions = .ok bound)
    (hfound : (engine.findRows table bound).Looks w (.ok (part.map asFound))) :
    (engine.select table items conditions order limit offset).Looks w (.ok {
      rows := (pageRows limit offset (sortRows order (part.map Prod.snd))).map
        (projectRow (schema.asked items))
      columns := (schema.asked items).map fun item => .string item.outputName }) := by
  have hrows : (part.map asFound).map Prod.snd = part.map Prod.snd := by
    rw [List.map_map]
    rfl
  refine (Catalog.looks_requireSchema hd ht).run_bind.trans ?_
  rw [hbound, lift_ok_bind, requireText_stored hd.wellFormed ht, lift_ok_bind]
  refine hfound.run_bind.trans ?_
  dsimp only
  rw [hrows, TableSchema.asked]
  by_cases hitems : items.isEmpty = true
  · -- The columns of a declared table are named by texts, so all of them are shown.
    have hnames : (schema.stored.columnNames.all fun name => name.nameKey?.isSome) = true := by
      rw [TableSchema.columnNames_stored, List.all_map, List.all_eq_true]
      exact fun _ _ => rfl
    rw [if_pos hitems, if_pos hitems, projectColumns, hnames, Bool.or_true, if_pos rfl, lift_ok_bind,
      TableSchema.columnNames_stored, itemsOf_names, List.map_map]
    rfl
  · rw [if_neg hitems, if_neg hitems]
    rfl

/-- What a query for all columns returns. -/
theorem looks_select_all (hd : d.Describes engine.layout w.store)
    (ht : d.tables table = some schema) (hids : schema.KeepsIds)
    (hpart : ∀ p ∈ part, FiledRow table schema p)
    (hbound : bindConditions schema.stored conditions = .ok bound)
    (hfound : (engine.findRows table bound).Looks w (.ok (part.map asFound))) :
    (engine.select table [] conditions [] none none).Looks w
      (.ok { rows := part.map fun p => p.2.shown, columns := schema.stored.columnNames }) := by
  have hwell := hd.wellFormed.schema_wellFormed table schema ht
  -- A filed row has the columns of its schema in their order, and its id.
  have hrows : (part.map Prod.snd).map (projectRow (schema.asked []))
      = part.map fun p => p.2.shown := by
    rw [List.map_map]
    refine List.map_congr_left fun p hp => ?_
    rw [← (hpart p hp).accepts.projectRow hwell hids, TableSchema.columnNames_stored, itemsOf_names]
    rfl
  have hcolumns : ((schema.asked []).map fun item => Json.string item.outputName)
      = schema.stored.columnNames := by
    rw [TableSchema.columnNames_stored, TableSchema.asked, if_pos List.isEmpty_nil, List.map_map]
    rfl
  have hselect : (engine.select table [] conditions [] none none).Looks w _ :=
    looks_select hd ht hbound hfound
  rw [sortRows_nil, pageRows] at hselect
  dsimp only [Option.getD_none] at hselect
  rw [List.drop_zero, hrows, hcolumns] at hselect
  exact hselect

/-- A removal that finds nothing. -/
theorem looks_delete_none (hd : d.Describes engine.layout w.store)
    (ht : d.tables table = some schema) (hbound : bindConditions schema.stored conditions = .ok bound)
    (hfound : (engine.findRows table bound).Looks w (.ok [])) :
    (engine.delete table conditions).Looks w (.ok { affected := 0 }) := by
  rcases Catalog.looks_indexes hd (hd.wellFormed.schema_fits table schema ht) with
    ⟨indexes, -, hindexes⟩
  refine (Catalog.looks_requireSchema hd ht).run_bind.trans ?_
  rw [hbound, lift_ok_bind]
  refine hindexes.run_bind.trans ?_
  rw [requireText_stored hd.wellFormed ht, lift_ok_bind]
  exact hfound.run_bind

variable {s s' : Surroundings Memory} {result : QueryResult}

/-- The rows that a search finds are those that a query returns. -/
theorem selects (hd : d.Describes engine.layout w.store) (ht : d.tables table = some schema)
    (hids : schema.KeepsIds) (hrows : w.store.HoldsRows engine.layout table schema rows)
    (hbound : bindConditions schema.stored conditions = .ok bound)
    (hfound : (engine.findRows table bound).Looks w
      (.ok ((rows.filter (isMatch bound)).map asFound)))
    (hs : s.Shows w) :
    engine.Selects s table schema conditions (rows.filter (isMatch bound)) rows where
  stores := hrows.stores hs.entries
  selected := ⟨bound, hbound, rfl⟩
  shown query hquery := by
    rw [(engine.call_statement hquery hs).1]
    exact congrArg Prod.fst (looks_select_all hd ht hids
      (fun p hp => hrows.filed p (List.mem_of_mem_filter hp)) hbound hfound)

/-- A statement that has found rows has done what its plain form does with the
    rows that a search finds. -/
theorem exists_plain_run (hd : d.Describes engine.layout w.store)
    (hindexed : d.Indexed engine.layout w.store)
    (hkeeps : ∀ t schema, d.tables t = some schema → schema.KeepsIds) {statement : Statement}
    (hplain : statement.Plain) (hfinds : statement.FindsRows)
    (ht : d.tables statement.table = some schema)
    (hrun : (engine.executeStatement statement).on w = (.ok result, w')) :
    ∃ rows v, ∃ search : List Condition → List (String × Row) → Except Fault (List (Value × Row)),
      w.store.HoldsRows engine.layout statement.table schema rows
      ∧ (∀ conditions, Searches conditions (search conditions))
      ∧ (∀ conditions (u : World) schema rows, d.Describes engine.layout u.store →
        d.IndexedIn engine.layout u.store statement.table →
        u.store.HoldsRows engine.layout statement.table schema rows →
        (engine.findRows statement.table conditions).Looks u (search conditions rows))
      ∧ (statement.plainly engine.layout schema.stored fun conditions => search conditions rows).on w
        = (.ok result, v)
      ∧ d.EndsAs engine.layout v w' := by
  have hids := hkeeps statement.table schema ht
  have hname := hd.wellFormed.schema_fits statement.table schema ht
  rcases exists_rows hd ht hids with ⟨rows, hrows⟩
  -- One way of searching for every store, so that it can be repeated on what is left.
  choose search hsearch hlooks using exists_search hd hname
  rcases findsRows_ends hd hindexed hplain hfinds ht hids hrows
    (fun conditions => (hsearch conditions).finds rows)
    (fun conditions => hlooks conditions w schema rows hd (hindexed _) hrows)
    (by rw [hrun]; exact fun fault hfault => absurd hfault (by simp)) with ⟨hout, hends⟩
  rw [hrun] at hout hends
  refine ⟨rows, Prod.snd _, search, hrows, hsearch, hlooks, ?_, hends⟩
  exact Prod.ext hout.symm rfl

/-- What a removal removes. -/
theorem delete_selected (hd : d.Describes engine.layout w.store)
    (hindexed : d.Indexed engine.layout w.store)
    (hkeeps : ∀ t schema, d.tables t = some schema → schema.KeepsIds)
    (ht : d.tables table = some schema)
    (hrun : (engine.executeStatement (.delete table conditions)).on w = (.ok result, w'))
    (hs : s.Shows w) (hs' : s'.Shows w') :
    ∃ part rows, engine.Selects s table schema conditions part rows
      ∧ result = { affected := part.length }
      ∧ s.store.Removes engine.layout table part rows s'.store
      ∧ (engine.delete table conditions).Looks w' (.ok { affected := 0 }) := by
  have hplain : (Statement.delete table conditions).Plain := trivial
  rcases exists_plain_run hd hindexed hkeeps hplain trivial ht hrun with
    ⟨rows, v, search, hrows, hsearch, hlooks, hplainly, hends⟩
  rcases (Statement.delete_yields (fun conditions => (hsearch conditions).finds rows) hrows).of_ok
    hplainly with ⟨bound, hbound, hfound, rfl, hchanges⟩
  have hpart : rows.filter (isMatch bound) ⊆ rows := List.filter_subset_self rows
  refine ⟨_, rows, selects hd ht (hkeeps table schema ht) hrows hbound ?_ hs, rfl,
    hends.removes hd hindexed hkeeps ht hrows hpart hchanges hs.entries hs'.entries, ?_⟩
  · rw [← hfound]
    exact hlooks bound w schema rows hd (hindexed _) hrows
  · -- What is left has been passed by once, and is passed by again.
    refine looks_delete_none hends.describes ht hbound ?_
    have hrest := hends.holdsRows hrows (hd.wellFormed.schema_fits table schema ht) hpart hchanges
      fun _ _ _ hnone => absurd hnone (by simp)
    have hunmatched : changedRows (fun _ => none) (rows.filter (isMatch bound)) rows
        = rows.filter fun p => !isMatch bound p := by
      rw [changedRows_none]
      refine List.filter_congr fun p hp => ?_
      simp [List.mem_filter, hp]
    rw [hunmatched] at hrest
    rw [← (hsearch bound).rest hfound]
    exact hlooks bound w' schema _ hends.describes (hends.indexed _) hrest

/-- What an update rewrites. -/
theorem update_selected (hd : d.Describes engine.layout w.store)
    (hindexed : d.Indexed engine.layout w.store)
    (hkeeps : ∀ t schema, d.tables t = some schema → schema.KeepsIds)
    (ht : d.tables table = some schema) {assignments : List Assignment}
    (hplain : (Statement.update table assignments conditions).Plain)
    (hrun : (engine.executeStatement (.update table assignments conditions)).on w
      = (.ok result, w'))
    (hs : s.Shows w) (hs' : s'.Shows w') :
    ∃ part rows, engine.Selects s table schema conditions part rows
      ∧ result = { affected := part.length }
      ∧ s.store.Rewrites engine.layout table schema assignments part rows s'.store := by
  rcases exists_plain_run hd hindexed hkeeps hplain trivial ht hrun with
    ⟨rows, v, search, hrows, hsearch, hlooks, hplainly, hends⟩
  rcases (Statement.update_yields (fun conditions => (hsearch conditions).finds rows) hrows).of_ok
    hplainly with ⟨bound, hbound, hfound, rfl, hcan, hchanges⟩
  have hpart : rows.filter (isMatch bound) ⊆ rows := List.filter_subset_self rows
  refine ⟨_, rows, selects hd ht (hkeeps table schema ht) hrows hbound ?_ hs, rfl,
    hends.rewrites hd hindexed hkeeps ht hrows hpart hplain hcan hchanges hs.entries hs'.entries⟩
  rw [← hfound]
  exact hlooks bound w schema rows hd (hindexed _) hrows

/-- A text that has been executed was about a declared table, if it is about rows. -/
theorem exists_run_of_call (hd : d.Describes engine.layout w.store) {sql : Option String}
    {statement : Statement} (hread : Statement.ofText sql = .ok statement)
    (hkind : statement.Manipulates) (hs : s.Shows w) {after : Surroundings Memory}
    (hrun : engine.call sql s = (.ok result, after)) :
    ∃ schema w', d.tables statement.table = some schema ∧ after.Shows w'
      ∧ (engine.executeStatement statement).on w = (.ok result, w') := by
  rcases engine.call_statement hread hs with ⟨hout, hafter⟩
  rw [hrun] at hout hafter
  rcases ht : d.tables statement.table with _ | schema
  · rw [(looks_missing hd hkind ht : _ = _)] at hout
    exact absurd hout (by simp)
  · exact ⟨schema, _, rfl, hafter, Prod.ext hout.symm rfl⟩

end Engine

/-- A removal removes, and an update rewrites, exactly the rows that a query with
    the same conditions would have returned. A removal that is repeated removes
    nothing. -/
theorem Reached.changes_selected {tables : Tables} {s after : Surroundings Memory}
    (h : Reached layout Orderly tables s.store) {useIndexes : Bool} {sql : Option String}
    {result : QueryResult}
    (hrun : (Engine.mk layout useIndexes).call sql s = (.ok result, after)) :
    (∀ table conditions, Statement.ofText sql = .ok (.delete table conditions) →
      ∃ schema part rows, tables table = some schema
        ∧ (Engine.mk layout useIndexes).Selects s table schema conditions part rows
        ∧ result = { affected := part.length }
        ∧ s.store.Removes layout table part rows after.store
        ∧ ((Engine.mk layout useIndexes).call sql after).1 = .ok { affected := 0 })
    ∧ ∀ table assignments conditions,
      Statement.ofText sql = .ok (.update table assignments conditions) →
      ∃ schema part rows, tables table = some schema
        ∧ (Engine.mk layout useIndexes).Selects s table schema conditions part rows
        ∧ result = { affected := part.length }
        ∧ s.store.Rewrites layout table schema assignments part rows after.store := by
  rcases s with ⟨m, ids, notes⟩
  rcases h.indexed with ⟨d, c, rfl, hm, hd, hindexed, hkeeps⟩
  have hs : Surroundings.Shows ⟨m, ids, notes⟩ ⟨c, ids, notes⟩ := ⟨hm, rfl, rfl⟩
  refine ⟨fun table conditions hread => ?_, fun table assignments conditions hread => ?_⟩
  · rcases Engine.exists_run_of_call hd hread trivial hs hrun with ⟨schema, w', ht, hafter, hexecute⟩
    rcases Engine.delete_selected hd hindexed hkeeps ht hexecute hs hafter with
      ⟨part, rows, hselects, hresult, hremoves, hagain⟩
    refine ⟨schema, part, rows, ht, hselects, hresult, hremoves, ?_⟩
    rw [(Engine.call_statement _ hread hafter).1]
    exact congrArg Prod.fst hagain
  · rcases Engine.exists_run_of_call hd hread trivial hs hrun with ⟨schema, w', ht, hafter, hexecute⟩
    rcases Engine.update_selected hd hindexed hkeeps ht (Statement.plain_of_ofText hread) hexecute hs
      hafter with ⟨part, rows, hselects, hresult, hrewrites⟩
    exact ⟨schema, part, rows, ht, hselects, hresult, hrewrites⟩

/-- The row that an index finds is changed in the column that it is found by, and
    it is removed. -/
theorem changes_selected_indexedTable :
    (∃ schema part rows, part.length = 1
      ∧ (Engine.mk defaultLayout true).Selects (freshRun indexedTable).2 "t" schema
        [⟨"a", .equal, .int 1⟩] part rows
      ∧ (freshRun indexedTable).2.store.Rewrites defaultLayout "t" schema [⟨"a", .int 1, some .plus⟩]
        part rows ((Engine.mk defaultLayout true).call (some "UPDATE t SET a = a + 1 WHERE a = 1")
          (freshRun indexedTable).2).2.store)
    ∧ ∃ schema part rows, part.length = 1
      ∧ (Engine.mk defaultLayout true).Selects (freshRun indexedTable).2 "t" schema
        [⟨"a", .equal, .int 1⟩] part rows
      ∧ (freshRun indexedTable).2.store.Removes defaultLayout "t" part rows
        ((Engine.mk defaultLayout true).call (some "DELETE FROM t WHERE a = 1")
          (freshRun indexedTable).2).2.store := by
  have hupdate : Statement.ofText (some "UPDATE t SET a = a + 1 WHERE a = 1")
      = .ok (.update "t" [⟨"a", .int 1, some .plus⟩] [⟨"a", .equal, .int 1⟩]) := by decide +kernel
  have hdelete : Statement.ofText (some "DELETE FROM t WHERE a = 1")
      = .ok (.delete "t" [⟨"a", .equal, .int 1⟩]) := by decide +kernel
  have hresults : ∀ sql ∈ [some "UPDATE t SET a = a + 1 WHERE a = 1", some "DELETE FROM t WHERE a = 1"],
      ((Engine.mk defaultLayout true).call sql (freshRun indexedTable).2).1
        = .ok { affected := 1 } := by
    decide +kernel
  have hrun : ∀ {x : Except Fault QueryResult × Surroundings Memory} {result : QueryResult},
      x.1 = .ok result → x = (.ok result, x.2) := fun h => Prod.ext h rfl
  have hcount : ∀ {part : List (String × Row)},
      (QueryResult.mk [] [] 1) = { affected := part.length } → part.length = 1 :=
    fun h => (QueryResult.mk.inj h).2.2.symm
  constructor
  · rcases (reached_indexedTable.changes_selected
      (hrun (hresults _ List.mem_cons_self))).2 _ _ _ hupdate with
      ⟨schema, part, rows, -, hselects, hcounted, hrewrites⟩
    exact ⟨schema, part, rows, hcount hcounted, hselects, hrewrites⟩
  · rcases (reached_indexedTable.changes_selected
      (hrun (hresults _ (List.mem_cons_of_mem _ List.mem_cons_self)))).1 _ _ hdelete with
      ⟨schema, part, rows, -, hselects, hcounted, hremoves, -⟩
    exact ⟨schema, part, rows, hcount hcounted, hselects, hremoves⟩

end TableStore
