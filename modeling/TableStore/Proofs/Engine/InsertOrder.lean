import TableStore.Proofs.Engine.Duplicates
import TableStore.Proofs.Engine.Inserted
import TableStore.Proofs.Engine.NewRows
import Mathlib.Data.List.Perm.Basic

/-!
# Insertions in Any Order

An insertion that supplies a key looks at one row, the one that has the text of the key
as its id, and at the catalog. If there is no such row it puts the row and an entry for
it in each index, and what it puts is fixed by the statement and the catalog alone: no
entry that is there is asked for. So insertions of rows with different keys do not see
each other, and they may as well be made in another order.

That the keys are different need not be assumed. It is a consequence of all insertions
having succeeded in one order, since each of them is refused if its key is taken.

## Main definitions

* `Contents.insertAll`: Entries stored one after the other.
* `Addition`: A row and its index entries, as they are stored.
* `Description.Adds`: A text that stores the same wherever its row is missing.
* `TableSchema.SuppliesKey`: An insertion that supplies a key.

## Theorems

* `Engine.insert_adds_alike`: An insertion that supplies a key does so.
* `Description.adds_of_calls`: What texts have stored that all succeeded.
* `Description.calls_of_adds`: Texts succeed if the rows that they store are missing.
* `Reached.insertions_commute`: The order of insertions does not matter.
-/

namespace TableStore

open Access

variable {layout : KeyLayout} {d : Description} {table : String} {schema : TableSchema}
  {w w' : World}

namespace Contents

/-- Entries stored one after the other. -/
def insertAll (c : Contents) (puts : List Entry) : Contents :=
  puts.foldl (fun c e => c.insert e.1 e.2) c

variable {c c' : Contents} {key : Bytes} {puts others : List Entry}

theorem insertAll_append (c : Contents) (puts others : List Entry) :
    c.insertAll (puts ++ others) = (c.insertAll puts).insertAll others :=
  List.foldl_append

theorem get?_insertAll_other (h : ∀ e ∈ puts, e.1 ≠ key) :
    (c.insertAll puts).get? key = c.get? key := by
  induction puts generalizing c with
  | nil => rfl
  | cons e puts ih =>
    exact (ih fun f hf => h f (List.mem_cons_of_mem e hf)).trans
      (get?_insert_other _ _ (h e List.mem_cons_self).symm)

theorem get?_insertAll_congr (h : c.get? key = c'.get? key) :
    (c.insertAll puts).get? key = (c'.insertAll puts).get? key := by
  induction puts generalizing c c' with
  | nil => exact h
  | cons e puts ih =>
    refine ih ?_
    rw [get?_insert, get?_insert, h]

/-- A key that has been given a value has one. -/
theorem get?_insertAll_ne_none (h : key ∈ puts.map Prod.fst ∨ c.get? key ≠ none) :
    (c.insertAll puts).get? key ≠ none := by
  induction puts generalizing c with
  | nil => exact h.resolve_left (by simp)
  | cons e puts ih =>
    refine ih ?_
    rw [get?_insert]
    split
    · exact Or.inr (by simp)
    · rename_i hne
      rw [List.map_cons, List.mem_cons, or_assoc] at h
      exact h.resolve_left hne

/-- Entries under different keys may be stored in any order. -/
theorem insertAll_comm (h : ∀ e ∈ puts, ∀ f ∈ others, e.1 ≠ f.1) :
    (c.insertAll puts).insertAll others = (c.insertAll others).insertAll puts := by
  refine ext_get? fun key => ?_
  by_cases hkey : ∃ e ∈ puts, e.1 = key
  · rcases hkey with ⟨e, he, rfl⟩
    have hapart : ∀ f ∈ others, f.1 ≠ e.1 := fun f hf => (h e he f hf).symm
    rw [get?_insertAll_other hapart]
    exact get?_insertAll_congr (get?_insertAll_other hapart).symm
  · have hapart : ∀ e ∈ puts, e.1 ≠ key := fun e he heq => hkey ⟨e, he, heq⟩
    rw [get?_insertAll_other hapart]
    exact get?_insertAll_congr (get?_insertAll_other hapart)

end Contents

/-- A dialogue that stores the same entries wherever it is run. -/
def Access.Puts {α : Type} (x : Access α) (a : α) (puts : List Entry) : Prop :=
  ∀ w, x.on w = (.ok a, { w with store := w.store.insertAll puts })

/-- Entries under the keys of a row and of its index entries. -/
def PutsAbout (layout : KeyLayout) (table : String) (id : Bytes) (puts : List Entry) : Prop :=
  ∀ e ∈ puts, ∃ slot : Slot, slot.Fits ∧ slot.IsAbout table id ∧ e.1 = slot.key layout

/-- Nothing is about two rows. -/
theorem Slot.IsAbout.id_eq {slot : Slot} {id id' : Bytes} (h : slot.IsAbout table id)
    (h' : slot.IsAbout table id') : id = id' := by
  rcases h with rfl | ⟨index, value, rfl⟩ <;> rcases h' with heq | ⟨index', value', heq⟩
  · exact (Slot.row.inj heq).2
  · cases heq
  · cases heq
  · exact (Slot.entry.inj heq).2.2.2

theorem PutsAbout.ne {id id' : Bytes} {puts others : List Entry}
    (h : PutsAbout layout table id puts) (h' : PutsAbout layout table id' others)
    (hne : id ≠ id') : ∀ e ∈ puts, ∀ f ∈ others, e.1 ≠ f.1 := by
  intro e he f hf heq
  rcases h e he with ⟨slot, hfits, habout, hkey⟩
  rcases h' f hf with ⟨other, hfits', habout', hkey'⟩
  obtain rfl := Slot.key_injective hfits hfits' (hkey.symm.trans (heq.trans hkey'))
  exact hne (habout.id_eq habout')

namespace Index

/-- The entry of a new row depends on nothing that is stored. -/
theorem move_puts (index : String) (v : Value) (name : String) :
    (move layout table index .null v (.text name)).Yields w (fun _ _ => True) fun _ _ =>
      ∃ puts, PutsAbout layout table (Text.encode name) puts
        ∧ (move layout table index .null v (.text name)).Puts () puts := by
  rw [move_eq, Value.null_equals]
  cases hv : v.isNull with
  | true => exact yields_pure ⟨[], fun _ he => absurd he List.not_mem_nil, fun _ => rfl⟩
  | false =>
    rw [if_neg Bool.false_ne_true, if_neg Bool.false_ne_true]
    refine Yields.look (looks_pure () w) ?_
    rw [addEntry]
    refine Yields.outcome (fun _ _ => trivial) fun key hkey => ?_
    refine Yields.outcome (fun _ _ => trivial) fun data hdata => yields_store ?_
    refine ⟨[(key, data)], fun e he => ?_, fun v => ?_⟩
    · rcases entryKey_ok hkey with ⟨value, idBytes, -, hid, rfl, hfits⟩
      obtain rfl := Except.ok.inj hid
      rw [List.mem_singleton.mp he]
      exact ⟨_, hfits, Or.inr ⟨index, value, rfl⟩, rfl⟩
    · rw [hkey, hdata]
      rfl

/-- The entries of a new row depend on nothing that is stored. -/
theorem moveAll_puts (new : String → Value) (name : String) (indexes : List IndexDefinition) :
    (moveAll layout table (fun _ => .null) new (.text name) indexes).Yields w (fun _ _ => True)
      fun _ _ => ∃ puts, PutsAbout layout table (Text.encode name) puts
        ∧ (moveAll layout table (fun _ => .null) new (.text name) indexes).Puts () puts := by
  induction indexes generalizing w with
  | nil => exact yields_pure ⟨[], fun _ he => absurd he List.not_mem_nil, fun _ => rfl⟩
  | cons index indexes ih =>
    refine (move_puts index.name (new index.column) name).bind fun _ _ hfirst => ?_
    refine ih.imp (fun _ _ h => h) fun _ _ hothers => ?_
    rcases hfirst with ⟨puts, habout, hputs⟩
    rcases hothers with ⟨more, habout', hmore⟩
    refine ⟨puts ++ more, fun e he => ?_, fun v => ?_⟩
    · exact (List.mem_append.mp he).elim (habout e) (habout' e)
    · rw [Contents.insertAll_append]
      exact (run_bind_ok (hputs v)).trans (hmore _)

end Index

/-- A row and its index entries, as they are stored. -/
structure Addition (layout : KeyLayout) (table : String) where
  id : String
  puts : List Entry
  about : PutsAbout layout table (Text.encode id) puts
  row : (Slot.row table (Text.encode id)).key layout ∈ puts.map Prod.fst

namespace Addition

variable {a b : Addition layout table} {c : Contents}

/-- A store that has a place for the row of an addition, and nothing there. -/
def IsFree (a : Addition layout table) (c : Contents) : Prop :=
  (Slot.row table (Text.encode a.id)).Fits
    ∧ c.get? ((Slot.row table (Text.encode a.id)).key layout) = none

/-- The id of a row that has been added is not free. -/
theorem not_isFree (heq : a.id = b.id) : ¬b.IsFree (c.insertAll a.puts) := by
  rintro ⟨-, hnone⟩
  rw [← heq] at hnone
  exact Contents.get?_insertAll_ne_none (Or.inl a.row) hnone

/-- An addition leaves the ids of others free. -/
theorem isFree_iff (hne : a.id ≠ b.id) : b.IsFree (c.insertAll a.puts) ↔ b.IsFree c := by
  refine and_congr_right fun hfits => ?_
  rw [Contents.get?_insertAll_other]
  intro e he heq
  rcases a.about e he with ⟨slot, hslot, habout, hkey⟩
  obtain rfl := Slot.key_injective hslot hfits (hkey.symm.trans heq)
  exact hne (Text.encode_injective (habout.id_eq (Or.inl rfl)))

/-- Additions with different ids may be stored in any order. -/
theorem foldl_perm {additions others : List (Addition layout table)} (hperm : others.Perm additions)
    (hnodup : (additions.map id).Nodup) (c : Contents) :
    others.foldl (fun c a => c.insertAll a.puts) c
      = additions.foldl (fun c a => c.insertAll a.puts) c := by
  refine (hperm.symm.foldl_eq' (fun a ha b hb c => ?_) c).symm
  by_cases heq : a.id = b.id
  · rw [List.inj_on_of_nodup_map hnodup ha hb heq]
  · exact Contents.insertAll_comm (a.about.ne b.about fun h => heq (Text.encode_injective h))

end Addition

/-- A text that stores the same in every store of a description in which its id is free. -/
def Description.Adds (d : Description) (engine : Engine) (sql : Option String)
    (a : Addition engine.layout table) : Prop :=
  ∀ s w, s.Shows w → d.Describes engine.layout w.store → a.IsFree w.store →
    (engine.call sql s).1 = .ok { affected := 1 }
      ∧ (engine.call sql s).2.Shows { w with store := w.store.insertAll a.puts }
      ∧ d.Describes engine.layout (w.store.insertAll a.puts)

/-- An insertion that supplies a key. -/
def TableSchema.SuppliesKey (schema : TableSchema) (table key : String) (sql : Option String) :
    Prop :=
  ∃ columns values given, Statement.ofText sql = .ok (.insert table columns values)
    ∧ (key, given) ∈ (columns.getD schema.names).zip values ∧ given.isNull = false

namespace Engine

variable {engine : Engine}

/-- A key that is free in one store is free in every store that has no row with its text. -/
theorem newRowId_elsewhere {v : Value} {id : String}
    (h : (engine.newRowId table (some v)).on w = (.ok id, w')) {u : World}
    (hfree : u.store.get? ((Slot.row table (Text.encode id)).key engine.layout) = none) :
    (engine.newRowId table (some v)).on u = (.ok id, u) := by
  obtain rfl := newRowId_key h
  rw [newRowId] at h ⊢
  split at h
  · cases h
  · rename_i htext
    rw [if_neg htext]
    dsimp only at h ⊢
    rcases hplace : engine.layout.rowKey? table (Text.encode v.toText) with fault | key
    · rw [hplace] at h
      cases h
    · rcases KeyLayout.rowKey?_ok hplace with ⟨rfl, -⟩
      rw [lift_ok_bind, (looks_fetch _ u).run_bind, hfree]
      rfl

/-- An insertion that supplies a key stores the same wherever its row is missing. -/
theorem insert_adds_alike (hd : d.Describes engine.layout w.store)
    (ht : d.tables table = some schema) (hids : schema.KeepsIds) {key : String}
    (hp : schema.primaryKey = some key) {sql : Option String}
    (hkey : schema.SuppliesKey table key sql) {s after : Surroundings Memory} (hs : s.Shows w)
    {result : QueryResult} (hcall : engine.call sql s = (.ok result, after)) :
    ∃ a : Addition engine.layout table, d.Adds engine sql a ∧ a.IsFree w.store := by
  rcases hkey with ⟨columns, values, given, hread, hgiven, hnull⟩
  rcases Statement.insert_of_ofText hread with ⟨hnodup, hvalues⟩
  have hdeclares := hd.declares ht
  rcases exists_run_of_call hd hread trivial hs hcall with ⟨schema', w', ht', hafter, hrun⟩
  obtain rfl : schema' = schema := Option.some.inj (ht'.symm.trans ht)
  rcases exists_of_run_bind_ok (x := engine.fileRow table columns values) hrun with
    ⟨⟨fields, id⟩, w₁, hfile, hends⟩
  have hfiled := @fileRow_describes d table w engine hd columns values hvalues
  rw [hfile] at hfiled
  rcases (fileRow_files hdeclares hids hvalues).of_ok hfile with
    ⟨supplied, row, data, hlength, hsupplied, hrow, hfiles, ⟨found, w₂, hfound, hdrawn, hsame⟩, -⟩
  dsimp only at hrow hfiles hfound hdrawn hsame
  subst hrow
  -- A key that is not null stays so in its column, and then no id is drawn.
  have hapart := (ofList_supplied (hdeclares.wellFormed.nodup_getD hnodup) hlength).2
  have hsupplies := (hfiles.fills hdeclares.wellFormed hnodup hlength hsupplied).supplies hapart
  rcases List.mem_map.mp (hdeclares.wellFormed.key_mem key hp) with ⟨column, hcolumn, rfl⟩
  have hcoerce := hsupplies column hcolumn given hgiven
  rw [primaryValue?_toFields hfound hp (Value.isNull_of_coerce hnull hcoerce)] at hdrawn hsame
  have hname : Key.fits (Text.encode table) = true := hfiles.fits.table_fits
  rcases Catalog.exists_indexes hd hname with ⟨indexes, -, hlooks⟩
  rw [(hlooks w₁ hfiled).run_bind, addEntries_stored] at hends
  rcases exists_of_run_bind_ok hends with ⟨_, w₃, hadd, -⟩
  rcases (Index.moveAll_puts _ _ _).of_ok hadd with ⟨more, habout, hmore⟩
  refine ⟨⟨id, ((Slot.row table (Text.encode id)).key engine.layout, data) :: more, fun e he => ?_,
    List.mem_cons_self⟩, fun s v hs hv hfree => ?_, hfiles.fits, hfiles.fresh⟩
  · rcases List.mem_cons.mp he with rfl | he
    · exact ⟨_, hfiles.fits, Or.inl rfl, rfl⟩
    · exact habout e he
  · have hfile' := hsame v v (hv.declares ht) (newRowId_elsewhere hdrawn hfree.2)
    have hfiled' := @fileRow_describes d table v engine hv columns values hvalues
    rw [hfile'] at hfiled'
    have hrun' : (engine.executeStatement (.insert table columns values)).on v
        = (.ok { affected := 1 }, { v with
          store := v.store.insertAll
            (((Slot.row table (Text.encode id)).key engine.layout, data) :: more) }) := by
      refine (run_bind_ok hfile').trans ?_
      dsimp only
      rw [(hlooks _ hfiled').run_bind, addEntries_stored, run_bind_ok (hmore _)]
      rfl
    rcases engine.call_statement hread hs with ⟨hout, hend⟩
    have hplain : (Statement.insert table columns values).Plain := hvalues
    have hdescribes := ((@obeys_execute d engine hv.wellFormed _ hplain trivial).describes hv).1
    rw [hrun'] at hout hend hdescribes
    exact ⟨hout, hend, hdescribes⟩

end Engine

namespace Description

variable {engine : Engine} {s : Surroundings Memory}

/-- What texts have stored that all succeeded: different rows, none of which was there. -/
theorem adds_of_calls (hd : d.Describes engine.layout w.store) (ht : d.tables table = some schema)
    (hids : schema.KeepsIds) {key : String} (hp : schema.primaryKey = some key)
    {texts : List (Option String)} (hkeys : ∀ sql ∈ texts, schema.SuppliesKey table key sql)
    (hs : s.Shows w) (hok : ∀ r ∈ (engine.calls texts s).1, ∃ result, r = .ok result) :
    ∃ additions : List (Addition engine.layout table), List.Forall₂ (d.Adds engine) texts additions
      ∧ (additions.map Addition.id).Nodup ∧ ∀ a ∈ additions, a.IsFree w.store := by
  induction texts generalizing s w with
  | nil => exact ⟨[], .nil, List.nodup_nil, fun a ha => absurd ha List.not_mem_nil⟩
  | cons sql texts ih =>
    rcases hcall : engine.call sql s with ⟨r, s'⟩
    rw [Engine.calls, hcall] at hok
    rcases hok r List.mem_cons_self with ⟨result, rfl⟩
    rcases Engine.insert_adds_alike hd ht hids hp (hkeys sql List.mem_cons_self) hs hcall with
      ⟨a, hadds, hfree⟩
    rcases hadds s w hs hd hfree with ⟨-, hshows, hdescribes⟩
    rw [hcall] at hshows
    rcases ih hdescribes (fun sql hsql => hkeys sql (List.mem_cons_of_mem _ hsql)) hshows
      (fun r hr => hok r (List.mem_cons_of_mem _ hr)) with ⟨additions, hall, hnodup, hothers⟩
    -- The id of the first row is taken when those of the others are free.
    have hne : ∀ b ∈ additions, a.id ≠ b.id := fun b hb heq =>
      Addition.not_isFree heq (hothers b hb)
    refine ⟨a :: additions, .cons hadds hall, List.nodup_cons.mpr ⟨fun hmem => ?_, hnodup⟩, ?_⟩
    · rcases List.mem_map.mp hmem with ⟨b, hb, heq⟩
      exact hne b hb heq.symm
    · intro b hb
      rcases List.mem_cons.mp hb with rfl | hb
      · exact hfree
      · exact (Addition.isFree_iff (hne b hb)).mp (hothers b hb)

/-- Texts succeed if the ids of the rows that they store are free and different. -/
theorem calls_of_adds (hd : d.Describes engine.layout w.store) {texts : List (Option String)}
    {additions : List (Addition engine.layout table)}
    (hall : List.Forall₂ (d.Adds engine) texts additions)
    (hnodup : (additions.map Addition.id).Nodup) (hfree : ∀ a ∈ additions, a.IsFree w.store)
    (hs : s.Shows w) :
    (∀ r ∈ (engine.calls texts s).1, r = .ok { affected := 1 })
      ∧ (engine.calls texts s).2.store.entries
        = (additions.foldl (fun c a => c.insertAll a.puts) w.store).entries := by
  induction hall generalizing s w with
  | nil => exact ⟨fun r hr => absurd hr List.not_mem_nil, hs.entries⟩
  | @cons sql a texts additions hadds _ ih =>
    rw [List.map_cons, List.nodup_cons] at hnodup
    rcases hadds s w hs hd (hfree a List.mem_cons_self) with ⟨hout, hshows, hdescribes⟩
    -- What is put for one id leaves the other ids free.
    have hothers : ∀ b ∈ additions, b.IsFree (w.store.insertAll a.puts) := by
      intro b hb
      refine (Addition.isFree_iff fun heq => hnodup.1 ?_).mpr (hfree b (List.mem_cons_of_mem a hb))
      exact List.mem_map.mpr ⟨b, hb, heq.symm⟩
    rcases ih hdescribes hnodup.2 hothers hshows with ⟨hok, hend⟩
    refine ⟨fun r hr => ?_, hend⟩
    rcases List.mem_cons.mp hr with rfl | hr
    · exact hout
    · exact hok r hr

end Description

/-- Insertions of rows with keys commute. If texts that insert rows into a table, each of them
    with a value for its primary key, all succeed in one order, then they all succeed in every
    order, and what the store holds afterwards is the same: every row, every index entry and
    everything else. The table may have any indexes, and nothing is asked of what they hold.
    That the keys have different texts is not asked either: it is why they have succeeded. -/
theorem Reached.insertions_commute {allows : Tables → Except Fault QueryResult → Prop}
    {tables : Tables} {s : Surroundings Memory} (h : Reached layout allows tables s.store)
    (ht : tables table = some schema) (hids : schema.KeepsIds) {key : String}
    (hp : schema.primaryKey = some key) {texts texts' : List (Option String)}
    (hkeys : ∀ sql ∈ texts, schema.SuppliesKey table key sql) (hperm : texts'.Perm texts)
    {useIndexes : Bool}
    (hok : ∀ r ∈ ((Engine.mk layout useIndexes).calls texts s).1, ∃ result, r = .ok result) :
    (∀ r ∈ ((Engine.mk layout useIndexes).calls texts' s).1, r = .ok { affected := 1 })
      ∧ ((Engine.mk layout useIndexes).calls texts' s).2.store.entries
        = ((Engine.mk layout useIndexes).calls texts s).2.store.entries := by
  rcases h.described with ⟨d, c, rfl, hm, hd⟩
  let w : World := ⟨c, s.ids, s.notes⟩
  have hs : s.Shows w := ⟨hm, rfl, rfl⟩
  have hw : d.Describes (Engine.mk layout useIndexes).layout w.store := hd
  rcases Description.adds_of_calls hw ht hids hp hkeys hs hok with ⟨additions, hall, hnodup, hfree⟩
  rcases List.perm_comp_forall₂ hperm hall with ⟨additions', hall', hperm'⟩
  have hnodup' := (hperm'.map Addition.id).nodup_iff.mpr hnodup
  have hfree' : ∀ a ∈ additions', a.IsFree w.store := fun a ha => hfree a (hperm'.mem_iff.mp ha)
  rcases Description.calls_of_adds hw hall hnodup hfree hs with ⟨-, hend⟩
  rcases Description.calls_of_adds hw hall' hnodup' hfree' hs with ⟨hok', hend'⟩
  refine ⟨hok', hend'.trans (Eq.trans ?_ hend.symm)⟩
  rw [Addition.foldl_perm hperm' hnodup]

/-- A table with a key and an index. -/
def rankedTable : List (Option String) :=
  [some "CREATE TABLE t (p INTEGER PRIMARY KEY, a TEXT)", some "CREATE INDEX i ON t(a)"]

/-- Two rows for it, with the same value for the index. -/
def rankedRows : List (Option String) :=
  [some "INSERT INTO t VALUES (2, 'x')", some "INSERT INTO t (a, p) VALUES ('x', 1)"]

/-- The rows may be inserted the other way round. -/
theorem insertions_commute_rankedTable :
    ((Engine.mk defaultLayout true).calls rankedRows.reverse (freshRun rankedTable).2).2.store.entries
      = ((Engine.mk defaultLayout true).calls rankedRows (freshRun rankedTable).2).2.store.entries := by
  have hruns : (∀ r ∈ (freshRun rankedTable).1, WithinLimits r)
      ∧ Tables.afterTexts (fun _ => none) rankedTable (freshRun rankedTable).1 "t" = some
        ⟨"t", [⟨"p", "INTEGER", false, true, .null⟩, ⟨"a", "TEXT", true, false, .null⟩], some "p"⟩
      ∧ ∀ r ∈ ((Engine.mk defaultLayout true).calls rankedRows (freshRun rankedTable).2).1,
        r = .ok { affected := 1 } := by
    decide +kernel
  rcases hruns with ⟨hlimits, htable, hcalls⟩
  have hids : TableSchema.KeepsIds
      ⟨"t", [⟨"p", "INTEGER", false, true, .null⟩, ⟨"a", "TEXT", true, false, .null⟩], some "p"⟩ := by decide
  have hreached := reached_freshRun (by decide +kernel) hlimits
  have hfirst : Statement.ofText (some "INSERT INTO t VALUES (2, 'x')")
      = .ok (.insert "t" none [.int 2, .text "x"]) := by decide +kernel
  have hsecond : Statement.ofText (some "INSERT INTO t (a, p) VALUES ('x', 1)")
      = .ok (.insert "t" (some ["a", "p"]) [.text "x", .int 1]) := by decide +kernel
  refine (hreached.insertions_commute htable hids rfl (fun sql hsql => ?_) (List.reverse_perm _)
    fun r hr => ⟨_, hcalls r hr⟩).2
  rcases List.mem_cons.mp hsql with rfl | hsql
  · exact ⟨none, _, .int 2, hfirst, by decide, rfl⟩
  · obtain rfl := List.mem_singleton.mp hsql
    exact ⟨some ["a", "p"], _, .int 1, hsecond, by decide, rfl⟩

end TableStore
