import TableStore.Proofs.Engine.FreeId
import TableStore.Proofs.Engine.Operators

/-!
# Two Stores With the Same Rows

Two stores hold the same tables and rows, each with indexes of its own that
agree with the rows. A statement about rows then ends in the same way in both
and leaves two such stores, because it follows a plain form in each and the two
plain forms are the same.

This can fail in two ways only. A run may hit a limit, and a run may come to a
condition whose operator orders nothing on a row that the other run never looks
at.

## Main definitions

* `Twins`: Stores that hold the same tables and rows.
* `EndsAlike`: The same outcome, and twins again.

## Theorems

* `Engine.executeStatement_twins`: A statement about rows ends in the same way.
* `Engine.findsRows_twins_scan`: The same for two ways of finding rows.
-/

namespace TableStore

open Access

variable {layout : KeyLayout} {d d' : Description} {v w : World}

/-- Stores that hold the same tables and rows, and indexes that agree with
    them. -/
structure Twins (layout : KeyLayout) (d d' : Description) (w v : World) : Prop where
  describes : d.Describes layout w.store
  describes' : d'.Describes layout v.store
  tables : d.tables = d'.tables
  keepsIds : ∀ t schema, d.tables t = some schema → schema.KeepsIds
  indexed : d.Indexed layout w.store
  indexed' : d'.Indexed layout v.store
  alike : v.Alike layout w

namespace Contents.HoldsRows

variable {table : String} {schema : TableSchema} {rows : List (String × Row)}

/-- The rows of a table are the same in stores that differ in their indexes. -/
theorem of_sameExcept {c c' : Contents} (h : c.HoldsRows layout table schema rows)
    (hname : Key.fits (Text.encode table) = true) (hsame : c.SameExcept layout Slot.IsOfIndex c') :
    c'.HoldsRows layout table schema rows where
  scan := by
    rw [← h.scan]
    refine Ascending.eq_of_mem_iff (c'.ascending.sublist List.filter_sublist)
      (c.ascending.sublist List.filter_sublist) ?_
    rintro ⟨key, value⟩
    rw [List.mem_filter, List.mem_filter, Contents.mem_entries, Contents.mem_entries]
    refine and_congr_left fun hcarries => ?_
    rw [hsame key]
    rintro slot hfits hslot rfl
    rcases (Slot.carries_rowPrefix hfits hname).mp hcarries with ⟨id, rfl⟩
    exact hslot
  filed := h.filed

theorem of_alike (h : w.store.HoldsRows layout table schema rows)
    (hname : Key.fits (Text.encode table) = true) (halike : w.Alike layout v) :
    v.store.HoldsRows layout table schema rows :=
  h.of_sameExcept hname halike.store

end Contents.HoldsRows

/-- The outcome is the same, and so are the tables and rows afterwards. -/
def EndsAlike (layout : KeyLayout) (d d' : Description) (x x' : Access QueryResult) (w v : World) :
    Prop :=
  (x.on w).1 = (x'.on v).1 ∧ Twins layout d d' (x.on w).2 (x'.on v).2

section

variable {x y x' y' : Access QueryResult} {u : World}

/-- A dialogue that keeps the indexes in agreement with the rows and ends as a
    plain one does. -/
def Access.KeepsUp (layout : KeyLayout) (d : Description) (x y : Access QueryResult) (w u : World) :
    Prop :=
  x.Follows layout y w u (fun w' => d.Indexed layout w'.store)
    fun _ w' u' => u'.Alike layout w' ∧ d.Indexed layout w'.store

theorem Access.KeepsUp.ends (h : x.KeepsUp layout d y w u) (hlimit : WithinLimits (x.on w).1) :
    (x.on w).1 = (y.on u).1 ∧ (y.on u).2.Alike layout (x.on w).2
      ∧ d.Indexed layout (x.on w).2.store := by
  rcases h with ⟨fault, w', hx, hf⟩ | ⟨fault, w', u', hx, hy, halike, hkept⟩ |
    ⟨a, w', u', hx, hy, halike, hkept⟩
  · exact absurd hf (hlimit fault (by rw [hx]))
  · rw [hx, hy]
    exact ⟨rfl, halike, hkept⟩
  · rw [hx, hy]
    exact ⟨rfl, halike, hkept⟩

theorem Access.KeepsUp.withinLimits (h : x.KeepsUp layout d y w u)
    (hlimit : WithinLimits (x.on w).1) : WithinLimits (y.on u).1 := by
  rw [← (h.ends hlimit).1]
  exact hlimit

/-- Twins in which two dialogues end as one plain one does end alike. -/
theorem Twins.endsAlike (h : Twins layout d d' w v) {table : String}
    (hobeys : x.Obeys (d.changes layout table) fun _ => True)
    (hobeys' : x'.Obeys (d'.changes layout table) fun _ => True)
    (hx : x.KeepsUp layout d y w u) (hx' : x'.KeepsUp layout d' y' v u)
    (hlimit : WithinLimits (x.on w).1) (hlimit' : WithinLimits (x'.on v).1) (hsame : y.on u = y'.on u) :
    EndsAlike layout d d' x x' w v := by
  rcases hx.ends hlimit with ⟨hout, halike, hindexed⟩
  rcases hx'.ends hlimit' with ⟨hout', halike', hindexed'⟩
  rw [hsame] at hout halike
  refine ⟨hout.trans hout'.symm, ?_⟩
  exact {
    describes := (hobeys.describes h.describes).1
    describes' := (hobeys'.describes h.describes').1
    tables := h.tables
    keepsIds := h.keepsIds
    indexed := hindexed
    indexed' := hindexed'
    alike := halike'.symm.trans halike }

end

namespace Engine

variable {uses uses' : Bool} {statement : Statement}

/-- A statement about a table that does not exist fails in both. -/
theorem missing_twins (h : Twins layout d d' w v) (hkind : statement.Manipulates)
    (ht : d.tables statement.table = none) :
    EndsAlike layout d d' ((Engine.mk layout uses).executeStatement statement)
      ((Engine.mk layout uses').executeStatement statement) w v := by
  have hx := @looks_missing d w ⟨layout, uses⟩ h.describes statement hkind ht
  have hx' := @looks_missing d' v ⟨layout, uses'⟩ h.describes' statement hkind
    (by rw [← h.tables]; exact ht)
  rw [EndsAlike, (hx : _ = _), (hx' : _ = _)]
  exact ⟨rfl, h⟩

/-- A statement that finds rows follows a plain form in each of the two. -/
theorem exists_plainly (h : Twins layout d d' w v) (hplain : statement.Plain)
    (hfinds : statement.FindsRows) {schema : TableSchema}
    (ht : d.tables statement.table = some schema) :
    ∃ rows find find', FindsAlways rows find ∧ FindsAlways rows find'
      ∧ (uses' = false → ∀ conditions,
        find' conditions = (matchesOf conditions rows).map (List.map asFound))
      ∧ ((Engine.mk layout uses).executeStatement statement).KeepsUp layout d
        (statement.plainly layout schema.stored find) w w
      ∧ ((Engine.mk layout uses').executeStatement statement).KeepsUp layout d'
        (statement.plainly layout schema.stored find') v w := by
  have hids := h.keepsIds statement.table schema ht
  have ht' : d'.tables statement.table = some schema := by
    rw [← h.tables]
    exact ht
  have hname := h.describes.wellFormed.schema_fits statement.table schema ht
  -- The rows are the same in both, however each of them finds its own.
  rcases exists_rows h.describes ht hids with ⟨rows, hrows⟩
  have hrows' := hrows.of_alike hname h.alike.symm
  rcases @execute_follows d w w ⟨layout, uses⟩ schema rows h.describes h.indexed statement hplain
    hfinds ht hids hrows (World.Alike.refl layout w) with ⟨find, hfind, -, hfollows⟩
  rcases @execute_follows d' w v ⟨layout, uses'⟩ schema rows h.describes' h.indexed' statement hplain
    hfinds ht' hids hrows' h.alike.symm with ⟨find', hfind', hscan, hfollows'⟩
  exact ⟨rows, find, find', hfind, hfind', hscan, hfollows, hfollows'⟩

/-- A statement that finds rows ends in the same way as with a full scan, if
    it meets the unknown operators that the full scan meets. -/
theorem findsRows_twins_scan (h : Twins layout d d' w v) (hplain : statement.Plain)
    (hfinds : statement.FindsRows)
    (hlimit : WithinLimits (((Engine.mk layout uses).executeStatement statement).on w).1)
    (hlimit' : WithinLimits (((Engine.mk layout false).executeStatement statement).on v).1)
    (hmeets : ∀ fault : Fault, fault.IsUnknownOperator →
      (((Engine.mk layout false).executeStatement statement).on v).1 = .error fault →
      (((Engine.mk layout uses).executeStatement statement).on w).1 = .error fault) :
    EndsAlike layout d d' ((Engine.mk layout uses).executeStatement statement)
      ((Engine.mk layout false).executeStatement statement) w v := by
  have hkind := hfinds.manipulates
  have hobeys := @obeys_execute d ⟨layout, uses⟩ h.describes.wellFormed statement hplain hkind
  have hobeys' := @obeys_execute d' ⟨layout, false⟩ h.describes'.wellFormed statement hplain hkind
  rcases ht : d.tables statement.table with _ | schema
  · exact missing_twins h hkind ht
  · rcases @exists_plainly layout d d' v w uses false statement h hplain hfinds schema ht with
      ⟨rows, find, find', hfind, -, hscan, hx, hx'⟩
    refine h.endsAlike hobeys hobeys' hx hx' hlimit hlimit' ?_
    refine Statement.plainly_agree_scan hfind (hscan rfl) (hx.withinLimits hlimit)
      (hx'.withinLimits hlimit') fun fault hunknown hrun => ?_
    rw [← (hx.ends hlimit).1]
    rw [← (hx'.ends hlimit').1] at hrun
    exact hmeets fault hunknown hrun

/-- A statement about rows ends in the same way in twins, if it meets the same
    unknown operators. New ids have to be counted. -/
theorem executeStatement_twins (h : Twins layout d d' w v) (hplain : statement.Plain)
    (hkind : statement.Manipulates) (hids : w.ids.Counts)
    (hlimit : WithinLimits (((Engine.mk layout uses).executeStatement statement).on w).1)
    (hlimit' : WithinLimits (((Engine.mk layout uses).executeStatement statement).on v).1)
    (hsame : MeetSame (((Engine.mk layout uses).executeStatement statement).on w).1
      (((Engine.mk layout uses).executeStatement statement).on v).1) :
    EndsAlike layout d d' ((Engine.mk layout uses).executeStatement statement)
      ((Engine.mk layout uses).executeStatement statement) w v := by
  have hobeys := @obeys_execute d ⟨layout, uses⟩ h.describes.wellFormed statement hplain hkind
  have hobeys' := @obeys_execute d' ⟨layout, uses⟩ h.describes'.wellFormed statement hplain hkind
  rcases ht : d.tables statement.table with _ | schema
  · exact missing_twins h hkind ht
  -- An insertion looks for no rows. All other statements do the same with the rows they find.
  rcases hkind.insert_or_findsRows with ⟨table, columns, values, rfl⟩ | hfinds
  · have hkeeps := h.keepsIds table schema ht
    have ht' : d'.tables table = some schema := by
      rw [← h.tables]
      exact ht
    have hx := @insert_follows d table w w ⟨layout, uses⟩ h.describes h.indexed schema ht hkeeps
      columns values hplain (Follows.refl _ w)
    have hv : v.ids.Counts := by
      rw [← h.alike.ids]
      exact hids
    have hx' := @insert_follows d' table w v ⟨layout, uses⟩ h.describes' h.indexed' schema ht' hkeeps
      columns values hplain (@fileRow_follows d' table w v ⟨layout, uses⟩ d h.describes' h.describes
        h.tables.symm h.alike.symm hv schema ht' columns values)
    exact h.endsAlike hobeys hobeys' hx hx' hlimit hlimit' rfl
  · rcases @exists_plainly layout d d' v w uses uses statement h hplain hfinds schema ht with
      ⟨rows, find, find', hfind, hfind', -, hx, hx'⟩
    refine h.endsAlike hobeys hobeys' hx hx' hlimit hlimit' ?_
    refine Statement.plainly_agree hfind hfind' (hx.withinLimits hlimit) (hx'.withinLimits hlimit') ?_
    rw [(hx.ends hlimit).1, (hx'.ends hlimit').1] at hsame
    exact hsame

end Engine

end TableStore
