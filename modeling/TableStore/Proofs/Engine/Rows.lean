import TableStore.Engine.Plan
import TableStore.Proofs.Engine.Catalog

/-!
# Reading Rows

Whatever a statement reads on its way to a row, and whichever plan it follows,
a row that it finds is one that was filed. The plan may go through an index
whose entries nothing is known about; an entry only leads to a key, and what is
found under the key is fixed by the description.

## Main definitions

* `Description.Files`: A row that is filed under an id.
* `Discipline.Finds`: A row that may be found in a table.

## Theorems

* `Description.Allows.files`: A stored row is filed under its key.
* `Engine.obeys_findRows`: Every row that is found was stored.
* `Description.files_of_finds`: Every row that is found is filed.
-/

namespace TableStore

open Access

variable {d : Description} {layout : KeyLayout} {table : String} {dis : Discipline}

namespace Description

/-- A row that is filed under an id: the id is a text, and the row has the shape
    that its table asks for. -/
def Files (d : Description) (table : String) (id : Value) (row : Row) : Prop :=
  ∀ schema, d.tables table = some schema → schema.KeepsIds →
    ∃ name, id = .text name ∧ schema.Accepts name row

/-- A stored row is read back, and it is filed under its key. -/
theorem Allows.read (hwell : d.WellFormed) {id data : Bytes} {schema : TableSchema}
    (h : d.Allows (.row table id) data) (ht : d.tables table = some schema)
    (hids : schema.KeepsIds) :
    ∃ name row, id = Text.encode name ∧ schema.Accepts name row ∧ Row.ofBytes data = .ok row
      ∧ Row.toBytes row = .ok data := by
  rcases h with ⟨other, hother, hrow⟩
  rw [ht] at hother
  rcases hrow (by rw [← Option.some.inj hother]; exact hids) with ⟨name, row, rfl, haccepts, hbytes⟩
  rw [← Option.some.inj hother] at haccepts
  have hnodup := haccepts.names_nodup (hwell.schema_wellFormed table schema ht) hids
  exact ⟨name, row, rfl, haccepts, Row.ofBytes_toBytes hnodup haccepts.scalar hbytes, hbytes⟩

theorem Allows.files (hwell : d.WellFormed) {id data : Bytes} {row : Row}
    (h : d.Allows (.row table id) data) (hread : Row.ofBytes data = .ok row)
    {schema : TableSchema} (ht : d.tables table = some schema) (hids : schema.KeepsIds) :
    ∃ name, id = Text.encode name ∧ schema.Accepts name row := by
  rcases h.read hwell ht hids with ⟨name, other, hname, haccepts, hother, -⟩
  rw [hread] at hother
  exact ⟨name, hname, (Except.ok.inj hother).symm ▸ haccepts⟩

end Description

/-- A row that may be found in a table: one whose bytes may be met under the key
    of a row. Its id is the one in the key, or the one that it keeps itself. -/
def Discipline.Finds (dis : Discipline) (layout : KeyLayout) (table : String) (p : Value × Row) :
    Prop :=
  ∃ id data, (Slot.row table id).Fits ∧ dis.meets ((Slot.row table id).key layout) data
    ∧ Row.ofBytes data = .ok p.2
    ∧ ((∃ name, p.1 = .text name ∧ id = Text.encode name) ∨ Engine.idOf p.2 = .ok p.1)

/-- A row that may be found is filed. -/
theorem Description.files_of_finds (h : d.Serves layout table dis) (hwell : d.WellFormed)
    {name : String} {p : Value × Row} (hfinds : dis.Finds layout name p) : d.Files name p.1 p.2 := by
  rcases hfinds with ⟨id, data, hfits, hmeets, hread, hid⟩
  intro schema ht hids
  rcases ((h.binds _ _ hmeets).allows hfits).files hwell hread ht hids with ⟨other, rfl, haccepts⟩
  rcases hid with ⟨given, hp, hsame⟩ | hkept
  · -- Found through an index, by an id that the key was built from.
    rw [Text.encode_injective hsame] at haccepts
    exact ⟨given, hp, haccepts⟩
  · -- Found by a scan, which takes the id from the row.
    rw [Engine.idOf, haccepts.filed] at hkept
    exact ⟨other, (Except.ok.inj hkept).symm, haccepts⟩

/-- What a scan for rows finds are rows of the table. -/
theorem exists_row_slot {key value : Bytes} (ht : Key.fits (Text.encode table) = true)
    (hcarries : Bytes.carries (layout.rowPrefix table) key = true)
    (hbinds : d.Binds layout key value) :
    ∃ id, (Slot.row table id).Fits ∧ key = (Slot.row table id).key layout
      ∧ d.Allows (.row table id) value := by
  rcases hbinds (KeyLayout.carries_root_of_rowPrefix hcarries) with ⟨slot, hfits, rfl, hallows⟩
  rcases (Slot.carries_rowPrefix hfits ht).mp hcarries with ⟨id, rfl⟩
  exact ⟨id, hfits, rfl, hallows⟩

namespace Engine

variable {engine : Engine} {name : String} {conditions : List Condition}

theorem obeys_plan (h : d.Serves engine.layout table dis) :
    (engine.plan name conditions).Obeys dis fun _ => True := by
  unfold plan
  split
  · exact obeys_pure trivial
  · refine (Catalog.obeys_indexes h name).bind fun indexes _ => ?_
    split
    · exact obeys_pure trivial
    · exact obeys_fail (h.fails _)

theorem obeys_rowIds (h : d.Serves layout table dis) {index : String} {v : Value} :
    (Index.rowIds layout name index v).Obeys dis fun _ => True := by
  unfold Index.rowIds
  split
  · exact obeys_pure trivial
  · refine (h.outcome fun _ _ => trivial).bind fun start _ => ?_
    exact (obeys_entries start).bind fun found _ => h.outcome fun _ _ => trivial

theorem obeys_fetchMatching (h : d.Serves engine.layout table dis) (id : String) :
    (engine.fetchMatching name conditions id).Obeys dis fun found =>
      ∀ p, found = some p → dis.Finds engine.layout name p := by
  refine (h.outcome fun key hkey => KeyLayout.rowKey?_ok hkey).bind ?_
  rintro key ⟨rfl, hfits⟩
  refine (obeys_fetch _).bind fun answer hanswer => ?_
  cases answer with
  | none => exact obeys_pure fun p hp => absurd hp (by simp)
  | some data =>
    refine (h.outcome fun row hrow => hrow).bind fun row hread => ?_
    refine (h.outcome fun _ _ => trivial).bind fun matched _ => ?_
    refine obeys_pure fun p hp => ?_
    cases matched with
    | false => exact absurd hp (by simp)
    | true =>
      rw [if_pos rfl, Option.some.injEq] at hp
      rw [← hp]
      exact ⟨_, data, hfits, hanswer data rfl, hread, Or.inl ⟨id, rfl, rfl⟩⟩

theorem matchingRows_finds (h : d.Serves layout table dis) {found : List Entry}
    {rows : List (Value × Row)} (hfits : Key.fits (Text.encode name) = true)
    (hfound : ∀ e ∈ found, Bytes.carries (layout.rowPrefix name) e.1 = true ∧ dis.meets e.1 e.2)
    (hrows : matchingRows conditions found = .ok rows) : ∀ p ∈ rows, dis.Finds layout name p := by
  induction found generalizing rows with
  | nil =>
    rw [← Except.ok.inj hrows]
    exact fun p hp => absurd hp (by simp)
  | cons e found ih =>
    rcases e with ⟨key, data⟩
    have htail : ∀ {others}, matchingRows conditions found = .ok others →
        ∀ p ∈ others, dis.Finds layout name p :=
      fun ho => ih (fun f hf => hfound f (List.mem_cons_of_mem _ hf)) ho
    rw [matchingRows] at hrows
    rcases exists_of_bind_eq_ok hrows with ⟨row, hrow, hrows⟩
    rcases exists_of_bind_eq_ok hrows with ⟨matched, -, hrows⟩
    cases matched with
    | false => exact htail hrows
    | true =>
      rw [if_pos rfl] at hrows
      rcases exists_of_bind_eq_ok hrows with ⟨id, hid, hrows⟩
      rcases exists_of_bind_eq_ok hrows with ⟨others, hothers, hrows⟩
      rw [← Except.ok.inj hrows]
      intro p hp
      rcases List.mem_cons.mp hp with rfl | hmem
      · rcases hfound _ List.mem_cons_self with ⟨hcarries, hmeets⟩
        rcases exists_row_slot hfits hcarries (h.binds _ _ hmeets) with ⟨slot, hslot, rfl, -⟩
        exact ⟨slot, data, hslot, hmeets, hrow, Or.inr hid⟩
      · exact htail hothers p hmem

theorem obeys_scanRows (h : d.Serves engine.layout table dis) :
    (do
      let start ← lift (engine.layout.rowPrefix? name)
      let found ← entries start
      lift (matchingRows conditions found) : Access (List (Value × Row))).Obeys dis
        fun rows => ∀ p ∈ rows, dis.Finds engine.layout name p := by
  refine (h.outcome fun start hstart => Key.ofComponents_ok hstart).bind ?_
  rintro start ⟨rfl, hfits⟩
  refine (obeys_entries _).bind fun found hfound => h.outcome fun rows hrows => ?_
  exact matchingRows_finds h (hfits _ List.mem_cons_self) hfound hrows

/-- Every row that is found was stored under the key of a row. -/
theorem obeys_findRows (h : d.Serves engine.layout table dis) :
    (engine.findRows name conditions).Obeys dis fun rows =>
      ∀ p ∈ rows, dis.Finds engine.layout name p := by
  refine (obeys_plan h).bind fun plan _ => ?_
  cases plan with
  | fullScan => exact obeys_scanRows h
  | indexed index column v =>
    refine (h.outcome fun _ _ => trivial).bind fun index _ => ?_
    refine (obeys_rowIds h).bind fun ids _ => ?_
    refine (obeys_mapList fun id _ => obeys_fetchMatching h id).bind fun found hfound => ?_
    refine obeys_pure fun p hp => ?_
    rcases List.mem_filterMap.mp hp with ⟨q, hq, hqp⟩
    exact hfound q hq p hqp

theorem obeys_allRows (h : d.Serves engine.layout table dis) :
    (engine.allRows name).Obeys dis fun rows =>
      ∀ p ∈ rows, dis.Finds engine.layout name p :=
  obeys_scanRows h

end Engine

end TableStore
