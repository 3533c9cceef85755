import TableStore.Proofs.Engine.Step

/-!
# Laws About Single Rows

Much of what holds of the rows of a table is a law about each of them by itself, about
its id and its bytes, such as that the row bears the id. A statement keeps such a law
if it keeps it where it writes a row, and there it may assume it of the row that it has
found. All else that a statement does leaves the rows as they are or removes some of
them.

This holds of every run, also of one that fails half way. Nothing is asked of the
schema, so it is said of tables whose columns take the name that ids are kept under too.

## Main definitions

* `Contents.EveryRow`: A store whose rows in a table all obey a law.
* `Description.keeping`: Changes that keep it so.

## Theorems

* `Access.Obeys.keeping`, `everyRow`: Changes that keep a law keep it in every run.
* `Engine.executeStatement_everyRow`: A statement keeps a law that its own rows obey.
-/

namespace TableStore

open Access

variable {d : Description} {layout : KeyLayout} {table : String} {law : Bytes → Bytes → Prop} {w : World}

/-- A store in which the rows of a table obey a law about their id and their bytes. -/
def Contents.EveryRow (layout : KeyLayout) (table : String) (law : Bytes → Bytes → Prop)
    (c : Contents) : Prop :=
  ∀ id data, (Slot.row table id).Fits → c.get? ((Slot.row table id).key layout) = some data → law id data

namespace Contents.EveryRow

variable {c c' : Contents}

/-- Rows that are all there already. -/
theorem of_subset (h : c.EveryRow layout table law)
    (hsub : ∀ id data, (Slot.row table id).Fits →
      c'.get? ((Slot.row table id).key layout) = some data →
      c.get? ((Slot.row table id).key layout) = some data) :
    c'.EveryRow layout table law :=
  fun id data hfits hget => h id data hfits (hsub id data hfits hget)

theorem insert (h : c.EveryRow layout table law) {key value : Bytes}
    (hvalue : ∀ id, (Slot.row table id).Fits → key = (Slot.row table id).key layout → law id value) :
    (c.insert key value).EveryRow layout table law := by
  intro id data hfits hget
  rw [Contents.get?_insert] at hget
  split at hget
  · rename_i hkey
    rw [← Option.some.inj hget]
    exact hvalue id hfits hkey.symm
  · exact h id data hfits hget

/-- What is stored at a place that is not that of a row. -/
theorem insert_other (h : c.EveryRow layout table law) {slot : Slot} (hfits : slot.Fits)
    (hslot : ∀ id, slot ≠ .row table id) (value : Bytes) :
    (c.insert (slot.key layout) value).EveryRow layout table law :=
  h.insert fun id hrow hkey => absurd (Slot.key_injective hfits hrow hkey) (hslot id)

theorem erase (h : c.EveryRow layout table law) (key : Bytes) :
    (c.erase key).EveryRow layout table law := by
  intro id data hfits hget
  rw [Contents.get?_erase] at hget
  split at hget
  · exact absurd hget (by simp)
  · exact h id data hfits hget

/-- A table that is not declared has no rows. -/
theorem of_undeclared (hd : d.Describes layout c) (ht : d.tables table = none) :
    c.EveryRow layout table law := by
  intro id data hfits hget
  rcases hd.allows hfits hget with ⟨other, hother, -⟩
  rw [ht] at hother
  exact absurd hother (by simp)

end Contents.EveryRow

/-- Changes under which the rows of a table obey a law. -/
def Description.keeping (d : Description) (layout : KeyLayout) (table : String)
    (law : Bytes → Bytes → Prop) : Discipline where
  meets key value := d.Binds layout key value ∧ ∀ id, (Slot.row table id).Fits →
    key = (Slot.row table id).key layout → law id value
  puts key value := ∀ id, (Slot.row table id).Fits → key = (Slot.row table id).key layout → law id value
  deletes _ := True
  fails _ := True

/-- Moving entries does not touch rows. -/
theorem Description.keeping_serves (d : Description) (layout : KeyLayout) (table : String)
    (law : Bytes → Bytes → Prop) : d.Serves layout table (d.keeping layout table law) where
  binds _ _ h := h.1
  puts_entry hfits _ id hrow hkey := absurd (Slot.key_injective hfits hrow hkey) (by simp)
  deletes_entry _ := trivial
  fails _ := trivial

/-- Changes to a table that keep a law about its rows keep it in every run, and what the run ends
    in has come about under the law. -/
theorem Access.Obeys.keeping {α : Type} {x : Access α} {post post' : α → Prop}
    (hx : x.Obeys (d.changes layout table) post) (hx' : x.Obeys (d.keeping layout table law) post')
    (hd : d.Describes layout w.store) (hrows : w.store.EveryRow layout table law) :
    (x.on w).2.store.EveryRow layout table law ∧ ∀ a, (x.on w).1 = .ok a → post' a := by
  -- Description and law are one invariant, and each change is held to both.
  have hrun := (hx.both hx').run (fun c => d.Describes layout c ∧ c.EveryRow layout table law)
    (by
      rintro c ⟨hc, hrows⟩ key value hget
      refine ⟨hc.binds key value hget, hc.binds key value hget, ?_⟩
      rintro id hfits rfl
      exact hrows id value hfits hget)
    (by
      rintro c _ value ⟨hc, hrows⟩ ⟨⟨slot, hfits, -, hdata, rfl, hallows⟩, hlaw⟩
      exact ⟨hc.insert_data hfits hdata hallows, hrows.insert hlaw⟩)
    (by
      rintro c _ ⟨hc, hrows⟩ ⟨⟨slot, hfits, -, hdata, rfl⟩, -⟩
      exact ⟨hc.erase_data hfits hdata, hrows.erase _⟩)
    w ⟨hd, hrows⟩
  exact ⟨hrun.1.2, fun a ha => (hrun.2.1 a ha).2⟩

/-- What keeps to the description of some table leaves a law about the rows of a table, if it
    keeps the law where the table is theirs. -/
theorem Access.Obeys.everyRow {α : Type} {x : Access α} {post : α → Prop} {other : String}
    (hx : x.Obeys (d.changes layout other) post)
    (hx' : other = table → x.Obeys (d.keeping layout table law) post)
    (hd : d.Describes layout w.store) (hrows : w.store.EveryRow layout table law) :
    (x.on w).2.store.EveryRow layout table law := by
  by_cases hother : other = table
  · subst hother
    exact (hx.keeping (hx' rfl) hd hrows).1
  · -- The rows are those of another table, and these are left alone.
    refine hrows.of_subset fun id data hfits hget => ?_
    rw [← (hx.describes hd).2.1 _ hfits (Ne.symm hother)]
    exact hget

namespace Engine

variable {engine : Engine}

/-- Filling a new index leaves the rows as they are. -/
theorem fillIndex_everyRow (hd : d.Describes engine.layout w.store) {index other column : String}
    (hcovers : d.covers other index = some column)
    (hrows : w.store.EveryRow engine.layout table law) :
    ((engine.fillIndex index other column).on w).2.store.EveryRow engine.layout table law := by
  refine (obeys_fillIndex (d.changes_serves _ _) hcovers).everyRow (fun hother => ?_) hd hrows
  subst hother
  exact obeys_fillIndex (d.keeping_serves _ _ law) hcovers

/-- A statement keeps a law about the rows of a table if the rows that it writes there obey
    it. -/
theorem executeStatement_everyRow (hd : d.Describes engine.layout w.store) {statement : Statement}
    (hplain : statement.Plain) (hrows : w.store.EveryRow engine.layout table law)
    (hwrites : statement.table = table → ∀ schema, d.tables table = some schema →
      statement.WritesWithin engine.layout schema (d.keeping engine.layout table law)) :
    ((engine.executeStatement statement).on w).2.store.EveryRow engine.layout table law := by
  have hmanipulates : statement.Manipulates →
      ((engine.executeStatement statement).on w).2.store.EveryRow engine.layout table law := by
    intro hkind
    refine (obeys_execute hd.wellFormed hplain hkind).everyRow (fun htable => ?_) hd hrows
    subst htable
    exact obeys_writes hd.wellFormed (d.keeping_serves _ _ law) hplain hkind (hwrites rfl)
      fun _ _ => trivial
  -- What is not about rows changes nothing when it fails.
  have hends : ∀ {x : Access QueryResult}, x.Yields w (fun _ w' => w' = w)
      (fun _ w' => w'.store.EveryRow engine.layout table law) →
      (x.on w).2.store.EveryRow engine.layout table law := by
    rintro x (⟨fault, w', hrun, rfl⟩ | ⟨_, w', hrun, hpost⟩)
    · rw [hrun]
      exact hrows
    · rw [hrun]
      exact hpost
  cases statement with
  | createTable other columns primaryKey ifNotExists =>
    refine hends ((createTable_yields hd).imp (fun _ _ hsame => hsame) ?_)
    rintro _ w' (⟨-, rfl⟩ | ⟨-, hfits, data, -, hstore⟩)
    · exact hrows
    · rw [hstore]
      exact hrows.insert_other hfits (fun _ => by simp) data
  | dropTable other ifExists =>
    refine hends ((dropTable_yields hd).imp (fun _ _ hsame => hsame) ?_)
    rintro _ w' (⟨-, rfl⟩ | hloses)
    · exact hrows
    · exact hrows.of_subset fun _ _ _ hget => hloses.subset _ _ hget
  | createIndex index other column ifNotExists =>
    rcases @createIndex_on d other index column w engine hd ifNotExists with
      ⟨r, hlooks, -⟩ | ⟨declared, ht, hcolumn, hnone, hfits, hrun⟩
    · rw [executeStatement, (hlooks : _ = _)]
      exact hrows
    · rw [executeStatement, hrun]
      exact fillIndex_everyRow (hd.cover ht hcolumn hnone hfits)
        (d.covers_cover_self other index column) (hrows.insert_other hfits (fun _ => by simp) _)
  | dropIndex index other ifExists =>
    refine hends ((dropIndex_yields hd).imp (fun _ _ hsame => hsame) ?_)
    rintro _ w' (rfl | hloses)
    · exact hrows
    · exact hrows.of_subset fun _ _ _ hget => hloses.subset _ _ hget
  | insert other columns values => exact hmanipulates trivial
  | select other items conditions order limit offset => exact hmanipulates trivial
  | update other assignments conditions => exact hmanipulates trivial
  | delete other conditions => exact hmanipulates trivial

end Engine

end TableStore
