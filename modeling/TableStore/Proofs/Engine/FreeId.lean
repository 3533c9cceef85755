import TableStore.Proofs.Engine.Filing
import TableStore.Proofs.Key.Counting

/-!
# Drawing Free Ids

A row without a key is given the first id of the source that no row has. The
search is given as many draws as the store has keys, and one more, so how far
it may go depends on how many keys there are, also on those of index entries.
For a source that counts this makes no difference. Its ids are all different,
each id that is taken has a row under it, and so the search ends before its
draws do.

What a search by counting does is said once, number by number: the ids of some
numbers belong to rows, and the search ends at the next one. That the ids are
different bounds these numbers by the rows of the table.

Two stores that differ in their indexes therefore file a new row in the same
way, as long as ids are counted.

## Main definitions

* `IdSource.Counts`: A source that counts.
* `Contents.Counted`: Numbers whose ids belong to rows.
* `Contents.EndsAt`: How a search by counting ends.

## Theorems

* `IdSource.paddedText_injective`: Different numbers have different ids.
* `Contents.Counted.le_rowCount`: There are no more of them than rows.
* `Engine.freeId_counts`: How a search by counting goes.
* `Engine.freeId_ends`: The search ends before its draws do.
* `Engine.fileRow_agree`: Stores that are alike file a row in the same way.
-/

namespace TableStore

open Access

variable {d : Description} {table : String} {v w : World}

namespace IdSource

/-- A source that counts. -/
def Counts : IdSource → Prop
  | counter _ _ _ => True
  | _ => False

instance : DecidablePred Counts
  | counter _ _ _ => isTrue trivial
  | random _ => isFalse id
  | supplied _ _ => isFalse id

/-- The number that a text with a sign spells. -/
def signedNumber (s : List Char) : Int :=
  if s.head? = some '-' then -(Text.numberOfDigits (Text.digitValues s.tail) : Int)
  else (Text.numberOfDigits (Text.digitValues s) : Int)

/-- The id for a number spells it. -/
theorem signedNumber_paddedText (width n : Int) : signedNumber (paddedText width n).toList = n := by
  rw [paddedText, String.toList_ofList, signedNumber]
  by_cases hn : n < 0
  · simp only [if_pos hn, List.cons_append, List.nil_append, List.head?_cons, if_true,
      List.tail_cons, Text.numberOfDigits_padded]
    omega
  · have hdigits : ∀ k, (List.replicate k '0' ++ Nat.toDigits 10 n.natAbs).head? ≠ some '-' := by
      -- What is written without a sign are digits only, so it is not read with one.
      intro k hhead
      have hmem := List.mem_of_mem_head? hhead
      rcases List.mem_append.mp hmem with hzero | hdigit
      · exact absurd (List.eq_of_mem_replicate hzero) (by decide)
      · exact absurd (Text.isDigit_toDigits hdigit) (by decide)
    simp only [if_neg hn, List.nil_append, if_neg (hdigits _), Text.numberOfDigits_padded]
    omega

/-- Different numbers have different ids. -/
theorem paddedText_injective {width a b : Int} (h : paddedText width a = paddedText width b) :
    a = b := by
  rw [← signedNumber_paddedText width a, h, signedNumber_paddedText]

end IdSource

namespace Contents

/-- The number of keys that are those of rows of a table. -/
def rowCount (c : Contents) (layout : KeyLayout) (table : String) : Nat :=
  (c.entries.filter fun e => Bytes.carries (layout.rowPrefix table) e.1).length

/-- Numbers from `first` on, `taken` of them, whose ids belong to rows. -/
def Counted (c : Contents) (layout : KeyLayout) (table : String) (width first : Int) (taken : Nat) :
    Prop :=
  ∀ j < taken, (Slot.counted table width (first + j)).Fits
    ∧ ∃ data, c.get? ((Slot.counted table width (first + j)).key layout) = some data

/-- How a search ends at a number: no row has its id, and it is the one that is found, or the
    number has no text, or its id no place in a key. -/
def EndsAt (c : Contents) (layout : KeyLayout) (table : String) (width n : Int)
    (outcome : Except Fault String) : Prop :=
  outcome = .ok (IdSource.paddedText width n) ∧ (Slot.counted table width n).Fits
      ∧ c.get? ((Slot.counted table width n).key layout) = none
    ∨ outcome = .error .digitLimit ∧ Text.withinDigitLimit n = false
    ∨ outcome = .error .componentTooLong ∧ Text.withinDigitLimit n = true
      ∧ ¬(Slot.counted table width n).Fits

variable {c : Contents} {layout : KeyLayout} {width first : Int} {taken : Nat}

theorem counted_zero : c.Counted layout table width first 0 :=
  fun j hj => absurd hj (Nat.not_lt_zero j)

/-- The first number and those after it. -/
theorem counted_succ {data : Bytes} (hfits : (Slot.counted table width first).Fits)
    (hget : c.get? ((Slot.counted table width first).key layout) = some data)
    (h : c.Counted layout table width (first + 1) taken) :
    c.Counted layout table width first (taken + 1) := by
  intro j hj
  cases j with
  | zero =>
    rw [Nat.cast_zero, add_zero]
    exact ⟨hfits, data, hget⟩
  | succ j =>
    rw [Nat.cast_succ, add_comm (j : Int) 1, ← add_assoc]
    exact h j (by omega)

/-- Different numbers are taken by different rows, so there are no more of them than rows. -/
theorem Counted.le_rowCount (h : c.Counted layout table width first taken) :
    taken ≤ c.rowCount layout table := by
  let keyOf (j : Nat) : Bytes := (Slot.counted table width (first + j)).key layout
  -- Different numbers are filed under different keys, and each of these is a row's.
  have hnodup : ((List.range taken).map keyOf).Nodup := by
    refine List.Nodup.map_on (fun i hi j hj heq => ?_) List.nodup_range
    have hslot := Slot.key_injective (h i (List.mem_range.mp hi)).1 (h j (List.mem_range.mp hj)).1 heq
    rw [Slot.counted, Slot.counted, Slot.row.injEq] at hslot
    have hnumber := IdSource.paddedText_injective (Text.encode_injective hslot.2)
    omega
  have hsubset : (List.range taken).map keyOf
      ⊆ (c.entries.filter fun e => Bytes.carries (layout.rowPrefix table) e.1).map Prod.fst := by
    intro key hkey
    rcases List.mem_map.mp hkey with ⟨j, hj, rfl⟩
    rcases (h j (List.mem_range.mp hj)).2 with ⟨data, hget⟩
    refine List.mem_map.mpr ⟨_, List.mem_filter.mpr ⟨mem_entries.mpr hget, ?_⟩, rfl⟩
    rw [Slot.counted, ← Slot.rowKey_eq]
    exact Bytes.carries_append _ _
  have hle := (hnodup.subperm hsubset).length_le
  rwa [List.length_map, List.length_range, List.length_map] at hle

theorem rowCount_le : c.rowCount layout table ≤ c.entries.length :=
  List.length_filter_le _ _

end Contents

theorem IdSource.Counts.after {ids : IdSource} (h : ids.Counts) (name : String) :
    (ids.next name).2.Counts := by
  cases ids with
  | counter start width used => exact trivial
  | random drawn => exact absurd h fun hf => hf
  | supplied answer drawn => exact absurd h fun hf => hf

/-- A run leaves a source that counts. -/
theorem Access.counts_run {α : Type} (x : Access α) (hw : w.ids.Counts) : (x.on w).2.ids.Counts :=
  x.ids_run (fun _ name h => h.after name) hw

namespace Engine

variable {engine : Engine}

theorem drawId_follows {layout : KeyLayout} (h : v.Alike layout w) :
    (drawId table).Follows layout (drawId table) w v (fun _ => True)
      fun _ w' v' => v'.Alike layout w' := by
  have halike : World.Alike layout { v with ids := (v.ids.next table).2 }
      { w with ids := (w.ids.next table).2 } := ⟨h.store, by rw [h.ids]⟩
  rw [Follows, drawId_on, drawId_on]
  rcases hdraw : (w.ids.next table).1 with fault | id <;> rw [h.ids] at hdraw
  · exact Or.inr (Or.inl ⟨fault, _, _, rfl, by rw [hdraw], halike, trivial⟩)
  · exact Or.inr (Or.inr ⟨id, _, _, rfl, by rw [hdraw], halike⟩)

/-- Stores that are alike give the same id to searches of the same length. -/
theorem freeId_follows (h : v.Alike engine.layout w) (draws : Nat) :
    (engine.freeId table draws).Follows engine.layout (engine.freeId table draws) w v
      (fun _ => True) fun _ w' v' => v'.Alike engine.layout w' := by
  induction draws generalizing v w with
  | zero => exact Or.inr (Or.inl ⟨_, w, v, rfl, rfl, h, trivial⟩)
  | succ draws ih =>
    rw [freeId]
    refine (drawId_follows h).bind fun id w' v' halike => ?_
    refine Follows.outcome halike trivial fun key hkey => ?_
    rcases KeyLayout.rowKey?_ok hkey with ⟨rfl, hfits⟩
    have hfetch := looks_fetch ((Slot.row table (Text.encode id)).key engine.layout) w'
    rw [halike.get?_slot hfits fun hslot => hslot] at hfetch
    refine Follows.look_both hfetch (looks_fetch _ v') halike trivial fun answer _ => ?_
    cases answer with
    | none => exact follows_pure halike
    | some data => exact ih halike

/-- A search that has ended does not need more draws. -/
theorem freeId_more {draws : Nat} {r : Except Fault String} {w' : World}
    (h : (engine.freeId table draws).on w = (r, w')) (hr : r ≠ .error .idsExhausted) (more : Nat) :
    (engine.freeId table (draws + more)).on w = (r, w') := by
  -- Both searches draw and look up the same, until the shorter one has ended.
  induction draws generalizing w with
  | zero =>
    rw [freeId] at h
    exact absurd (Prod.mk.inj h).1.symm hr
  | succ draws ih =>
    rw [Nat.succ_add, freeId]
    rw [freeId] at h
    rcases run_bind_cases (drawId table) _ w with ⟨fault, w₁, hdraw, hrun⟩ | ⟨id, w₁, hdraw, hrun⟩
    · rw [hrun] at h
      rw [run_bind_error hdraw]
      exact h
    · rw [hrun] at h
      rw [run_bind_ok hdraw]
      rcases hkey : engine.layout.rowKey? table (Text.encode id) with fault | key
      · rw [hkey] at h
        exact h
      · rw [hkey, lift_ok_bind, (looks_fetch key w₁).run_bind] at h
        rw [lift_ok_bind, (looks_fetch key w₁).run_bind]
        rcases hget : w₁.store.get? key with _ | data
        · rw [hget] at h
          exact h
        · rw [hget] at h
          exact ih h

/-- The next draw of a search by counting. -/
theorem freeId_succ {store : Contents} {start width : Int} {used : Members Int}
    {notes : List String} (draws : Nat) :
    (engine.freeId table (draws + 1)).on ⟨store, .counter start width used, notes⟩
      = if Text.withinDigitLimit ((Members.get? used table).getD start) = false then
          (.error .digitLimit, ⟨store, .counter start width (Members.set used table
            ((Members.get? used table).getD start + 1)), notes⟩)
        else if ¬(Slot.counted table width ((Members.get? used table).getD start)).Fits then
          (.error .componentTooLong, ⟨store, .counter start width (Members.set used table
            ((Members.get? used table).getD start + 1)), notes⟩)
        else match store.get? ((Slot.counted table width
            ((Members.get? used table).getD start)).key engine.layout) with
          | none => (.ok (IdSource.paddedText width ((Members.get? used table).getD start)),
              ⟨store, .counter start width (Members.set used table
                ((Members.get? used table).getD start + 1)), notes⟩)
          | some _ => (engine.freeId table draws).on ⟨store, .counter start width
              (Members.set used table ((Members.get? used table).getD start + 1)), notes⟩ := by
  -- The number may be too long for a text or a key. Otherwise its key is looked up.
  set first := (Members.get? used table).getD start with hfirst
  rw [freeId, run_bind, drawId_on, IdSource.next, ← hfirst]
  by_cases hlimit : Text.withinDigitLimit first = true
  · rw [if_pos hlimit, if_neg (by simp [hlimit])]
    dsimp only
    by_cases hfits : (Slot.counted table width first).Fits
    · rw [if_neg (not_not.mpr hfits), KeyLayout.rowKey?_fits hfits, lift_ok_bind,
        (looks_fetch _ _).run_bind]
      dsimp only [Slot.counted]
      rcases store.get? ((Slot.row table (Text.encode (IdSource.paddedText width first))).key
        engine.layout) with _ | data
      · rfl
      · rfl
    · rw [if_pos hfits]
      rcases hkey : engine.layout.rowKey? table (Text.encode (IdSource.paddedText width first))
        with fault | key
      · rw [Key.ofComponents_error hkey]
        rfl
      · exact absurd (KeyLayout.rowKey?_ok hkey).2 hfits
  · rw [if_neg hlimit, if_pos (Bool.eq_false_iff.mpr hlimit)]

/-- How a search by counting goes. The ids of some numbers belong to rows, and it ends at the
    next, unless all its draws are taken. -/
theorem freeId_counts {store : Contents} {start width : Int} (used : Members Int)
    {notes : List String} (draws : Nat) :
    (∃ (taken : Nat) (r : Except Fault String),
      (engine.freeId table draws).on ⟨store, .counter start width used, notes⟩
        = (r, ⟨store, .counter start width (Members.set used table
            ((Members.get? used table).getD start + taken + 1)), notes⟩)
      ∧ store.Counted engine.layout table width ((Members.get? used table).getD start) taken
      ∧ store.EndsAt engine.layout table width ((Members.get? used table).getD start + taken) r)
    ∨ ((engine.freeId table draws).on ⟨store, .counter start width used, notes⟩).1
        = .error .idsExhausted
      ∧ store.Counted engine.layout table width ((Members.get? used table).getD start) draws := by
  induction draws generalizing used with
  | zero => exact Or.inr ⟨rfl, Contents.counted_zero⟩
  | succ draws ih =>
    rw [freeId_succ]
    set first := (Members.get? used table).getD start with hfirst
    have hzero : first + ((0 : Nat) : Int) = first := by
      rw [Nat.cast_zero, add_zero]
    by_cases hlimit : Text.withinDigitLimit first = false
    · rw [if_pos hlimit]
      refine Or.inl ⟨0, _, by rw [hzero], Contents.counted_zero, ?_⟩
      rw [hzero]
      exact Or.inr (Or.inl ⟨rfl, hlimit⟩)
    by_cases hfits : (Slot.counted table width first).Fits
    · rw [if_neg hlimit, if_neg (not_not.mpr hfits)]
      rcases hget : store.get? ((Slot.counted table width first).key engine.layout) with _ | data
      · refine Or.inl ⟨0, _, by rw [hzero], Contents.counted_zero, ?_⟩
        rw [hzero]
        exact Or.inl ⟨rfl, hfits, hget⟩
      · -- The rest of the search starts one number later.
        have hrest := ih (Members.set used table (first + 1))
        rw [Members.get?_set, if_pos rfl, Option.getD_some] at hrest
        simp only [Members.set_set] at hrest
        rcases hrest with ⟨taken, r, hrun, hcounted, hends⟩ | ⟨hrun, hcounted⟩
        · have hnumber : first + 1 + (taken : Int) = first + ((taken + 1 : Nat) : Int) := by
            push_cast
            ring
          rw [hnumber] at hrun hends
          exact Or.inl ⟨taken + 1, r, hrun, Contents.counted_succ hfits hget hcounted, hends⟩
        · exact Or.inr ⟨hrun, Contents.counted_succ hfits hget hcounted⟩
    · rw [if_neg hlimit, if_pos hfits]
      refine Or.inl ⟨0, _, by rw [hzero], Contents.counted_zero, ?_⟩
      rw [hzero]
      exact Or.inr (Or.inr ⟨rfl, by simpa using hlimit, hfits⟩)

/-- A search by counting that has one draw more than there are keys ends before
    its draws do. -/
theorem freeId_ends (hids : w.ids.Counts) {draws : Nat} (hdraws : w.store.entries.length < draws) :
    ((engine.freeId table draws).on w).1 ≠ .error .idsExhausted := by
  intro hexhausted
  rcases w with ⟨store, ids, notes⟩
  rcases ids with ⟨start, width, used⟩ | drawn | ⟨answer, drawn⟩
  · rcases @freeId_counts table engine store start width used notes draws with
      ⟨taken, r, hrun, -, hends⟩ | ⟨-, hcounted⟩
    · rw [hrun] at hexhausted
      rcases hends with ⟨hr, -⟩ | ⟨hr, -⟩ | ⟨hr, -⟩ <;> rw [hr] at hexhausted <;>
        exact absurd hexhausted (by simp)
    · exact absurd (hcounted.le_rowCount.trans Contents.rowCount_le) (not_le.mpr hdraws)
  · exact hids
  · exact hids

/-- A new id that is counted takes no more draws than there are keys, so the
    search may be given more. -/
theorem newRowId_on (hids : w.ids.Counts) (more : Nat) : (engine.newRowId table none).on w
    = (engine.freeId table (w.store.entries.length + 1 + more)).on w := by
  have hrun : (engine.newRowId table none).on w
      = (engine.freeId table (w.store.entries.length + 1)).on w := (looks_keyCount w).run_bind
  rw [hrun, freeId_more rfl (freeId_ends hids (Nat.lt_succ_self _)) more]

/-- Two searches for a new id may be given the same draws. -/
theorem exists_draws (hw : w.ids.Counts) (hv : v.ids.Counts) :
    ∃ draws, (engine.newRowId table none).on w = (engine.freeId table draws).on w
      ∧ (engine.newRowId table none).on v = (engine.freeId table draws).on v := by
  refine ⟨_, newRowId_on hw v.store.entries.length, ?_⟩
  rw [newRowId_on hv w.store.entries.length]
  congr 2
  omega

/-- Stores that are alike give the same new id to a row, if ids are counted. -/
theorem newRowId_follows (h : v.Alike engine.layout w) (hids : w.ids.Counts) (key : Option Value) :
    (engine.newRowId table key).Follows engine.layout (engine.newRowId table key) w v
      (fun _ => True) fun _ w' v' => v'.Alike engine.layout w' := by
  cases key with
  | some v' =>
    rw [newRowId]
    split
    · exact Or.inr (Or.inl ⟨_, w, v, rfl, rfl, h, trivial⟩)
    · refine Follows.outcome h trivial fun key hkey => ?_
      rcases KeyLayout.rowKey?_ok hkey with ⟨rfl, hfits⟩
      have hfetch := looks_fetch ((Slot.row table (Text.encode v'.toText)).key engine.layout) w
      rw [h.get?_slot hfits fun hslot => hslot] at hfetch
      refine Follows.look_both hfetch (looks_fetch _ v) h trivial fun answer _ => ?_
      cases answer with
      | none => exact follows_pure h
      | some data => exact Or.inr (Or.inl ⟨_, w, v, rfl, rfl, h, trivial⟩)
  | none =>
    have hv : v.ids.Counts := by
      rw [← h.ids]
      exact hids
    -- The stores have different numbers of keys, so both searches are given enough draws.
    rcases @exists_draws table v w engine hids hv with ⟨draws, hw, hv⟩
    rw [Follows, hw, hv]
    exact freeId_follows h draws

/-- Stores that are alike file a row in the same way, if ids are counted. -/
theorem fileRow_follows {d' : Description} (hw : d.Describes engine.layout w.store)
    (hv : d'.Describes engine.layout v.store) (htables : d.tables = d'.tables)
    (h : v.Alike engine.layout w) (hids : w.ids.Counts) {schema : TableSchema}
    (ht : d.tables table = some schema) (columns : Option (List String)) (values : List Value) :
    (engine.fileRow table columns values).Follows engine.layout
      (engine.fileRow table columns values) w v (fun _ => True)
      fun _ w' v' => v'.Alike engine.layout w' := by
  have ht' : d'.tables table = some schema := by
    rw [← htables]
    exact ht
  refine Follows.look_both (Catalog.looks_requireSchema hw ht) (Catalog.looks_requireSchema hv ht')
    h trivial fun stored _ => ?_
  dsimp only
  split
  · exact Or.inr (Or.inl ⟨_, w, v, rfl, rfl, h, trivial⟩)
  · refine Follows.outcome h trivial fun supplied _ => ?_
    refine Follows.outcome h trivial fun _ _ => ?_
    refine Follows.outcome h trivial fun row _ => ?_
    refine Follows.outcome h trivial fun key _ => ?_
    refine (newRowId_follows h hids key).bind fun id w' v' halike => ?_
    refine Follows.outcome halike trivial fun key _ => ?_
    refine Follows.outcome halike trivial fun data _ => ?_
    exact Follows.store (follows_pure (halike.insert key data))

end Engine

end TableStore
