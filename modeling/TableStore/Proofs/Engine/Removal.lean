import TableStore.Engine.Definition
import TableStore.Proofs.Engine.Alike
import TableStore.Proofs.Engine.Catalog

/-!
# Removing Whole Families

Tables and indexes are removed by prefix: every key that carries it goes. In a
store whose keys are those of places, the keys with a prefix of the layout are
those of a family of places, so such a removal is described by the family that
is lost. Nothing else changes, and in particular nothing is added.

## Main definitions

* `Contents.Loses`: A removal of the places of a family.

## Theorems

* `Index.removeAll_on`: What a removal by prefix counts and leaves.
* `Engine.dropIndexes_loses`: What removing the indexes of a table leaves.
-/

namespace TableStore

open Access

variable {layout : KeyLayout} {table index : String} {w : World}

namespace Contents

/-- A removal of the places of a family. -/
structure Loses (layout : KeyLayout) (gone : Slot → Prop) (c c' : Contents) : Prop where
  subset : ∀ key value, c'.get? key = some value → c.get? key = some value
  none : ∀ slot : Slot, slot.Fits → gone slot → c'.get? (slot.key layout) = none
  same : c.SameExcept layout gone c'

namespace Loses

variable {gone gone' : Slot → Prop} {a b c : Contents}

theorem placed (h : a.Loses layout gone b) (ha : a.Placed layout) : b.Placed layout :=
  fun key value hget => ha key value (h.subset key value hget)

theorem refl (c : Contents) : c.Loses layout (fun _ => False) c :=
  ⟨fun _ _ h => h, fun _ _ h => absurd h fun hf => hf, SameExcept.refl _ c⟩

theorem trans (h : a.Loses layout gone b) (h' : b.Loses layout gone' c) :
    a.Loses layout (fun slot => gone slot ∨ gone' slot) c where
  subset key value hget := h.subset key value (h'.subset key value hget)
  none slot hfits hslot := by
    rcases hslot with hslot | hslot
    · rcases hget : c.get? (slot.key layout) with _ | value
      · rfl
      · have hb := h'.subset _ _ hget
        rw [h.none slot hfits hslot] at hb
        exact absurd hb (by simp)
    · exact h'.none slot hfits hslot
  same := (h.same.imp fun _ => Or.inl).trans (h'.same.imp fun _ => Or.inr)

/-- A family may be said in another way, as far as places are concerned that
    fit. -/
theorem congr (h : a.Loses layout gone b)
    (hiff : ∀ slot : Slot, slot.Fits → (gone slot ↔ gone' slot)) : a.Loses layout gone' b where
  subset := h.subset
  none slot hfits hslot := h.none slot hfits ((hiff slot hfits).mpr hslot)
  same key hkey := h.same key fun slot hfits hslot => hkey slot hfits ((hiff slot hfits).mp hslot)

/-- A larger family is lost if the store had nothing at its other places. -/
theorem widen (h : a.Loses layout gone b)
    (hle : ∀ slot : Slot, slot.Fits → gone slot → gone' slot)
    (hbound : ∀ slot : Slot, ∀ value, slot.Fits → gone' slot →
      a.get? (slot.key layout) = some value → gone slot) : a.Loses layout gone' b where
  subset := h.subset
  none slot hfits hslot := by
    rcases hget : b.get? (slot.key layout) with _ | value
    · rfl
    · rw [h.none slot hfits (hbound slot value hfits hslot (h.subset _ _ hget))] at hget
      exact absurd hget (by simp)
  same key hkey := h.same key fun slot hfits hslot => hkey slot hfits (hle slot hfits hslot)

theorem erase {slot : Slot} (hfits : slot.Fits) (c : Contents) :
    c.Loses layout (· = slot) (c.erase (slot.key layout)) where
  subset key value hget := by
    rw [get?_erase] at hget
    split at hget
    · exact absurd hget (by simp)
    · exact hget
  none other _ heq := by
    rw [heq, get?_erase_self]
  same := SameExcept.erase hfits rfl

/-- A removal by prefix loses the places whose keys carry it. -/
theorem without {start : Bytes} (hc : c.Placed layout)
    (hroot : ∀ key, Bytes.carries start key = true → Bytes.carries layout.root key = true) :
    c.Loses layout (fun slot => Bytes.carries start (slot.key layout) = true) (c.without start) where
  subset key value hget := by
    rw [get?_without] at hget
    split at hget
    · exact absurd hget (by simp)
    · exact hget
  none slot _ hslot := by
    rw [get?_without, if_pos hslot]
  same key hkey := by
    rw [get?_without]
    split
    · rename_i hcarries
      rcases hget : c.get? key with _ | value
      · rfl
      · -- A key that is gone was that of a slot, and these are excluded.
        rcases hc key value hget (hroot key hcarries) with ⟨slot, hfits, rfl⟩
        exact absurd rfl (hkey slot hfits hcarries)
    · rfl

/-- Nothing is left at the places of a family that are told by a prefix, and
    all else is left. -/
theorem eq_without {start : Bytes} (h : a.Loses layout gone b) (ha : a.Placed layout)
    (hroot : ∀ key, Bytes.carries start key = true → Bytes.carries layout.root key = true)
    (hiff : ∀ slot : Slot, slot.Fits →
      (Bytes.carries start (slot.key layout) = true ↔ gone slot)) : b = a.without start := by
  refine ext_get? fun key => ?_
  rw [get?_without]
  split
  · rename_i hcarries
    rcases hget : b.get? key with _ | value
    · rfl
    · -- The key is that of a place, and the place is one of the family.
      rcases ha key value (h.subset key value hget) (hroot key hcarries) with ⟨slot, hfits, rfl⟩
      rw [h.none slot hfits ((hiff slot hfits).mp hcarries)] at hget
      exact absurd hget (by simp)
  · rename_i hnot
    refine h.same key fun slot hfits hgone heq => hnot ?_
    rw [heq]
    exact (hiff slot hfits).mpr hgone

end Loses

end Contents

namespace Index

theorem forList_remove_on (found : List Entry) (w : World) :
    ∃ c, (forList (fun entry => remove entry.1) found).on w = (.ok (), { w with store := c })
      ∧ ∀ key, c.get? key = if key ∈ found.map Prod.fst then none else w.store.get? key := by
  induction found generalizing w with
  | nil => exact ⟨w.store, rfl, fun key => by simp⟩
  | cons entry found ih =>
    rcases ih { w with store := w.store.erase entry.1 } with ⟨c, hrun, hget⟩
    refine ⟨c, hrun, fun key => ?_⟩
    rw [hget, Contents.get?_erase, List.map_cons]
    by_cases hmem : key ∈ found.map Prod.fst
    · rw [if_pos hmem, if_pos (List.mem_cons_of_mem _ hmem)]
    · rw [if_neg hmem]
      by_cases hkey : key = entry.1
      · rw [if_pos hkey, if_pos (List.mem_cons.mpr (Or.inl hkey))]
      · rw [if_neg hkey, if_neg fun h => (List.mem_cons.mp h).elim hkey hmem]

/-- A removal by prefix counts the keys that carry it and leaves the others. -/
theorem removeAll_on (start : Bytes) (w : World) :
    (removeAll start).on w = (.ok (w.store.entries.filter fun e => Bytes.carries start e.1).length,
      { w with store := w.store.without start }) := by
  have hentries := looks_entries start w
  rcases forList_remove_on (w.store.entries.filter fun e => Bytes.carries start e.1) w with
    ⟨c, hrun, hget⟩
  -- The keys that were found are those with the prefix, each with its value.
  have hc : c = w.store.without start := by
    refine Contents.ext_get? fun key => ?_
    rw [hget, Contents.get?_without]
    by_cases hcarries : Bytes.carries start key = true
    · rw [if_pos hcarries]
      split
      · rfl
      · rename_i hmem
        rcases hvalue : w.store.get? key with _ | value
        · rfl
        · refine absurd (List.mem_map.mpr ⟨(key, value), ?_, rfl⟩) hmem
          exact List.mem_filter.mpr ⟨Contents.mem_entries.mpr hvalue, hcarries⟩
    · rw [if_neg hcarries, if_neg]
      intro hmem
      rcases List.mem_map.mp hmem with ⟨e, he, rfl⟩
      exact hcarries (List.mem_filter.mp he).2
  rw [hc] at hrun
  exact hentries.run_bind.trans (run_bind_ok hrun)

/-- Clearing an index loses its entries and counts them. -/
theorem clear_on (hfits : (Slot.definition table index).Fits) (hw : w.store.Placed layout) :
    ∃ c, (clear layout table index).on w
        = (.ok (w.store.entries.filter fun e =>
            Bytes.carries (layout.indexPrefix table index) e.1).length, { w with store := c })
      ∧ w.store.Loses layout (fun slot => ∃ value id, slot = .entry table index value id) c := by
  have hindex : Key.fits (Text.encode index) = true := hfits _ (by simp [Slot.components])
  have hstart : layout.indexPrefix? table index = .ok (layout.indexPrefix table index) :=
    Key.ofComponents_fit hfits _
  have hrun := removeAll_on (layout.indexPrefix table index) w
  have hloses := Contents.Loses.without hw fun key =>
    @KeyLayout.carries_root_of_indexPrefix layout table index key
  rw [clear, hstart]
  refine ⟨_, hrun, hloses.congr fun slot hslot => ?_⟩
  exact Slot.carries_indexPrefix hslot hfits.table_fits hindex

end Index

/-- The definition and the entries of an index. -/
def Slot.IsPartOf (table index : String) (slot : Slot) : Prop :=
  slot = definition table index ∨ ∃ value id, slot = entry table index value id

theorem Slot.IsPartOf.isOfIndex {slot : Slot} (h : slot.IsPartOf table index) : slot.IsOfIndex := by
  rcases h with rfl | ⟨value, id, rfl⟩
  · trivial
  · trivial

namespace Engine

variable {engine : Engine}

/-- Removing an index loses its definition and its entries. What follows is told how many
    entries there were. -/
theorem dropIndex_loses (hfits : (Slot.definition table index).Fits)
    (hw : w.store.Placed engine.layout) {α : Type} (f : Nat → Access α) :
    ∃ c, (do
        let n ← Index.clear engine.layout table index
        Catalog.deleteIndex engine.layout table index
        f n).on w = (f (w.store.entries.filter fun e =>
          Bytes.carries (engine.layout.indexPrefix table index) e.1).length).on { w with store := c }
      ∧ w.store.Loses engine.layout (Slot.IsPartOf table index) c := by
  rcases Index.clear_on hfits hw with ⟨c, hrun, hloses⟩
  have hdelete : (Catalog.deleteIndex engine.layout table index).on { w with store := c }
      = (.ok (), { w with store := c.erase ((Slot.definition table index).key engine.layout) }) := by
    rw [Catalog.deleteIndex, KeyLayout.indexMetaKey?_fits hfits]
    rfl
  refine ⟨_, (run_bind_ok hrun).trans (run_bind_ok hdelete), ?_⟩
  refine (hloses.trans (Contents.Loses.erase hfits c)).congr fun slot _ => ?_
  exact Or.comm

/-- What removing the indexes of a table leaves. -/
theorem dropIndexes_loses {indexes : List IndexDefinition}
    (hfits : ∀ index ∈ indexes, (Slot.definition table index.name).Fits)
    (hw : w.store.Placed engine.layout) :
    ∃ c, (engine.dropIndexes table (indexes.map IndexDefinition.stored)).on w
        = (.ok (), { w with store := c })
      ∧ w.store.Loses engine.layout
        (fun slot => ∃ index ∈ indexes, slot.IsPartOf table index.name) c := by
  induction indexes generalizing w with
  | nil =>
    refine ⟨w.store, rfl, (Contents.Loses.refl w.store).congr fun slot _ => ?_⟩
    exact ⟨fun hf => absurd hf fun hf => hf, fun ⟨index, hindex, _⟩ => absurd hindex (by simp)⟩
  | cons index indexes ih =>
    rcases dropIndex_loses (hfits index List.mem_cons_self) hw
      (fun _ => engine.dropIndexes table (indexes.map IndexDefinition.stored)) with
      ⟨c, hrun, hloses⟩
    rcases @ih { w with store := c } (fun other hother => hfits other (List.mem_cons_of_mem _ hother))
      (hloses.placed hw) with ⟨c', hrun', hloses'⟩
    refine ⟨c', hrun.trans hrun', (hloses.trans hloses').congr fun slot _ => ?_⟩
    simp only [List.mem_cons, exists_eq_or_imp]

end Engine

end TableStore
