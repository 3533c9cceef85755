import TableStore.Proofs.Engine.Indexed

/-!
# Stores That Differ in Their Indexes

Two stores that hold the same tables and rows may have different indexes. A
statement that changes rows also keeps the indexes up to date, and apart from
that it does the same in both. To say so, a dialogue is compared with a plainer
one that leaves the indexes alone: it follows the plain one if it ends as the
plain one does, and the surroundings afterwards are alike again. As before, a
run that hits a limit is left out of account.

The rule for one dialogue after the other makes the comparison go along with
the text of both. A step that only concerns indexes is taken on one side alone.

## Main definitions

* `World.Alike`: The same surroundings except for indexes.
* `Access.Follows`: A dialogue that ends as a plainer one does.

## Theorems

* `Follows.bind`: One dialogue after the other.
* `Follows.step`: A step that is taken on one side.
* `Describes.same_except`: Indexes that agree with rows differ where these do.
* `Describes.eq_of_alike`: Indexes that agree with the rows are determined by
  them.
-/

namespace TableStore

open Access

variable {layout : KeyLayout} {u v w w' : World}

/-- The definitions and the entries of indexes. -/
def Slot.IsOfIndex : Slot → Prop
  | definition _ _ => True
  | entry _ _ _ _ => True
  | _ => False

theorem Slot.IsEntryOf.isOfIndex {table index : String} {id : Bytes} {slot : Slot}
    (h : slot.IsEntryOf table index id) : slot.IsOfIndex := by
  rcases h with ⟨value, rfl⟩
  trivial

theorem Contents.SameExcept.symm {changed : Slot → Prop} {a b : Contents}
    (h : a.SameExcept layout changed b) : b.SameExcept layout changed a :=
  fun key hkey => (h key hkey).symm

/-- Surroundings with the same ids to draw and the same store, except for the
    definitions and entries of indexes. -/
structure World.Alike (layout : KeyLayout) (v w : World) : Prop where
  store : v.store.SameExcept layout Slot.IsOfIndex w.store
  ids : w.ids = v.ids

namespace World.Alike

theorem refl (layout : KeyLayout) (w : World) : w.Alike layout w :=
  ⟨Contents.SameExcept.refl _ _, rfl⟩

theorem symm (h : v.Alike layout w) : w.Alike layout v :=
  ⟨h.store.symm, h.ids.symm⟩

theorem trans (h : u.Alike layout v) (h' : v.Alike layout w) : u.Alike layout w :=
  ⟨h.store.trans h'.store, h'.ids.trans h.ids⟩

/-- A step that changes indexes only. -/
theorem of_steps {changed : Slot → Prop} (h : v.Alike layout w)
    (hsteps : w.StepsWithin layout changed w') (hchanged : ∀ slot, changed slot → slot.IsOfIndex) :
    v.Alike layout w' :=
  ⟨h.store.trans (hsteps.store.imp hchanged), hsteps.ids.trans h.ids⟩

theorem insert (h : v.Alike layout w) (key value : Bytes) :
    World.Alike layout { v with store := v.store.insert key value }
      { w with store := w.store.insert key value } where
  store k hk := by
    rw [Contents.get?_insert, Contents.get?_insert, h.store k hk]
  ids := h.ids

theorem erase (h : v.Alike layout w) (key : Bytes) :
    World.Alike layout { v with store := v.store.erase key }
      { w with store := w.store.erase key } where
  store k hk := by
    rw [Contents.get?_erase, Contents.get?_erase, h.store k hk]
  ids := h.ids

theorem get?_slot (h : v.Alike layout w) {slot : Slot} (hfits : slot.Fits)
    (hslot : ¬slot.IsOfIndex) : w.store.get? (slot.key layout) = v.store.get? (slot.key layout) :=
  h.store.get?_slot hfits hslot

end World.Alike

namespace Access

variable {α β : Type} {x : Access α} {y : Access α} {kept : World → Prop}

/-- A dialogue that ends as a plainer one does, in surroundings that are alike,
    unless it hits a limit. What holds after a fault and what holds of a value
    is said besides. -/
def Follows (layout : KeyLayout) (x y : Access α) (w v : World) (kept : World → Prop)
    (post : α → World → World → Prop) : Prop :=
  (∃ fault w', x.on w = (.error fault, w') ∧ fault.IsLimit)
    ∨ (∃ fault w' v', x.on w = (.error fault, w') ∧ y.on v = (.error fault, v')
      ∧ v'.Alike layout w' ∧ kept w')
    ∨ ∃ a w' v', x.on w = (.ok a, w') ∧ y.on v = (.ok a, v') ∧ post a w' v'

theorem follows_pure {a : α} {post : α → World → World → Prop} (h : post a w v) :
    (pure a : Access α).Follows layout (pure a) w v kept post :=
  Or.inr (Or.inr ⟨a, w, v, rfl, rfl, h⟩)

/-- A dialogue follows itself. -/
theorem Follows.refl (x : Access α) (w : World) :
    x.Follows layout x w w (fun _ => True) fun _ w' v' => v'.Alike layout w' := by
  rcases h : x.on w with ⟨fault | a, w'⟩
  · exact Or.inr (Or.inl ⟨fault, w', w', h, h, World.Alike.refl layout w', trivial⟩)
  · exact Or.inr (Or.inr ⟨a, w', w', h, h, World.Alike.refl layout w'⟩)

/-- A dialogue that fails, other than at a limit, does so as the plain one
    does. -/
theorem Follows.of_error {post : α → World → World → Prop} (h : x.Follows layout y w v kept post)
    {fault : Fault} {w' : World} (hrun : x.on w = (.error fault, w')) (hlimit : ¬fault.IsLimit) :
    ∃ v', y.on v = (.error fault, v') ∧ v'.Alike layout w' ∧ kept w' := by
  rcases h with ⟨other, w₁, hx, hother⟩ | ⟨other, w₁, v₁, hx, hy, hend⟩ | ⟨a, w₁, v₁, hx, -⟩
  · exact absurd (Except.error.inj (Prod.mk.inj (hx.symm.trans hrun)).1 ▸ hother) hlimit
  · rcases Prod.mk.inj (hx.symm.trans hrun) with ⟨hfault, rfl⟩
    rw [← Except.error.inj hfault]
    exact ⟨v₁, hy, hend⟩
  · exact absurd (Prod.mk.inj (hx.symm.trans hrun)).1 (by simp)

/-- One dialogue after the other. -/
theorem Follows.bind {f g : α → Access β} {mid : α → World → World → Prop}
    {post : β → World → World → Prop} (hx : x.Follows layout y w v kept mid)
    (hf : ∀ a w' v', mid a w' v' → (f a).Follows layout (g a) w' v' kept post) :
    (x >>= f).Follows layout (y >>= g) w v kept post := by
  rcases hx with ⟨fault, w', hx, hlimit⟩ | ⟨fault, w', v', hx, hy, hend⟩ |
    ⟨a, w', v', hx, hy, hmid⟩
  · exact Or.inl ⟨fault, w', run_bind_error hx, hlimit⟩
  · exact Or.inr (Or.inl ⟨fault, w', v', run_bind_error hx, run_bind_error hy, hend⟩)
  · rw [Follows, run_bind_ok hx, run_bind_ok hy]
    exact hf a w' v' hmid

/-- What both sides look up. -/
theorem Follows.look_both {r : Except Fault α} {f g : α → Access β}
    {post : β → World → World → Prop} (hx : x.Looks w r) (hy : y.Looks v r)
    (halike : v.Alike layout w) (hkept : kept w)
    (h : ∀ a, r = .ok a → (f a).Follows layout (g a) w v kept post) :
    (x >>= f).Follows layout (y >>= g) w v kept post := by
  cases r with
  | ok a =>
    rw [Follows, hx.run_bind, hy.run_bind]
    exact h a rfl
  | error fault =>
    exact Or.inr (Or.inl ⟨fault, w, v, hx.run_bind_error, hy.run_bind_error, halike, hkept⟩)

/-- What one side looks up and the other is given. -/
theorem Follows.looked {r : Except Fault α} {f g : α → Access β}
    {post : β → World → World → Prop} (hx : x.Looks w r) (halike : v.Alike layout w)
    (hkept : kept w) (h : ∀ a, r = .ok a → (f a).Follows layout (g a) w v kept post) :
    (x >>= f).Follows layout (lift r >>= g) w v kept post :=
  Follows.look_both hx (looks_lift r v) halike hkept h

/-- An outcome that both sides have. -/
theorem Follows.outcome {r : Except Fault α} {f g : α → Access β}
    {post : β → World → World → Prop} (halike : v.Alike layout w) (hkept : kept w)
    (h : ∀ a, r = .ok a → (f a).Follows layout (g a) w v kept post) :
    (lift r >>= f).Follows layout (lift r >>= g) w v kept post :=
  Follows.looked (looks_lift r w) halike hkept h

theorem Follows.store {key value : Bytes} {f g : Unit → Access β} {post : β → World → World → Prop}
    (h : (f ()).Follows layout (g ()) { w with store := w.store.insert key value }
      { v with store := v.store.insert key value } kept post) :
    (Access.store key value >>= f).Follows layout (Access.store key value >>= g) w v kept post :=
  h

theorem Follows.remove {key : Bytes} {f g : Unit → Access β} {post : β → World → World → Prop}
    (h : (f ()).Follows layout (g ()) { w with store := w.store.erase key }
      { v with store := v.store.erase key } kept post) :
    (Access.remove key >>= f).Follows layout (Access.remove key >>= g) w v kept post :=
  h

/-- A limit that is hit. -/
theorem Follows.limit {r : Except Fault α} {f g : α → Access β} {post : β → World → World → Prop}
    (hlimit : ∀ fault, r = .error fault → fault.IsLimit)
    (h : ∀ a, r = .ok a → (f a).Follows layout (g a) w v kept post) :
    (lift r >>= f).Follows layout (lift r >>= g) w v kept post := by
  cases r with
  | ok a => exact h a rfl
  | error fault => exact Or.inl ⟨fault, w, rfl, hlimit fault rfl⟩

/-- A step that is taken on one side, because it only concerns indexes. -/
theorem Follows.step {f : α → Access β} {z : Access β} {mid : α → World → Prop}
    {post : β → World → World → Prop} (hx : x.Succeeds w mid)
    (hf : ∀ a w', mid a w' → (f a).Follows layout z w' v kept post) :
    (x >>= f).Follows layout z w v kept post := by
  rcases hx with ⟨fault, w', hx, hlimit⟩ | ⟨a, w', hx, hmid⟩
  · exact Or.inl ⟨fault, w', run_bind_error hx, hlimit⟩
  · rw [Follows, run_bind_ok hx]
    exact hf a w' hmid

/-- What is looked up on one side. -/
theorem Follows.look {f : α → Access β} {z : Access β} {a : α} {post : β → World → World → Prop}
    (hx : x.Looks w (.ok a)) (hf : (f a).Follows layout z w v kept post) :
    (x >>= f).Follows layout z w v kept post := by
  rw [Follows, hx.run_bind]
  exact hf

end Access

namespace Description

variable {d : Description} {c c' : Contents}

/-- What is stored at the place of an entry, if the entries agree with the
    rows. -/
theorem Describes.get?_entry_iff (hd : d.Describes layout c) (hindexed : d.Indexed layout c)
    {table index : String} {value id : Bytes} (hfits : (Slot.entry table index value id).Fits)
    {data : Bytes} : c.get? ((Slot.entry table index value id).key layout) = some data
      ↔ ∃ column, d.covers table index = some column ∧ data = id
        ∧ Key.encodeIndexValue (c.cell layout table id column) = .ok value := by
  constructor
  · intro hget
    rcases hd.allows hfits hget with ⟨column, hcovers⟩
    exact ⟨column, hcovers, (hindexed table index column hcovers id value data hfits).mp hget⟩
  · rintro ⟨column, hcovers, hentry⟩
    exact (hindexed table index column hcovers id value data hfits).mpr hentry

/-- Indexes that agree with the rows are determined by them: where two stores
    that hold what one description says have the same rows, they have the same
    entries. -/
theorem Describes.same_except (hd : d.Describes layout c) (hd' : d.Describes layout c')
    (hindexed : d.Indexed layout c) (hindexed' : d.Indexed layout c')
    {changed : String → Bytes → Prop} (h : c.SameExcept layout
      (fun slot => slot.IsOfIndex ∨ ∃ table id, changed table id ∧ slot = .row table id) c') :
    c.SameExcept layout (fun slot => ∃ table id, changed table id ∧ slot.IsAbout table id) c' := by
  intro key hkey
  -- Definitions follow from the description, and entries from their rows.
  by_cases hslot : ∃ slot : Slot, slot.Fits ∧ slot.IsOfIndex ∧ key = slot.key layout
  · rcases hslot with ⟨slot, hfits, hindex, rfl⟩
    cases slot with
    | schema table => exact absurd hindex fun hf => hf
    | row table id => exact absurd hindex fun hf => hf
    | definition table index =>
      exact Option.ext fun data =>
        (hd'.get?_definition_iff hfits).trans (hd.get?_definition_iff hfits).symm
    | entry table index value id =>
      have hrow : c'.get? ((Slot.row table id).key layout)
          = c.get? ((Slot.row table id).key layout) := by
        refine h.get?_slot hfits.row_of_entry ?_
        rintro (hf | ⟨t, i, hchanged, heq⟩)
        · exact hf
        · rw [Slot.row.injEq] at heq
          rw [← heq.1, ← heq.2] at hchanged
          exact hkey _ hfits ⟨table, id, hchanged, Or.inr ⟨index, value, rfl⟩⟩ rfl
      have hcell : ∀ column, c'.cell layout table id column = c.cell layout table id column :=
        fun column => by rw [Contents.cell, Contents.cell, Contents.rowAt, Contents.rowAt, hrow]
      refine Option.ext fun data => (hd'.get?_entry_iff hindexed' hfits).trans ?_
      simp only [hcell]
      exact (hd.get?_entry_iff hindexed hfits).symm
  · refine h key ?_
    rintro slot hfits (hindex | ⟨table, id, hchanged, rfl⟩) rfl
    · exact hslot ⟨slot, hfits, hindex, rfl⟩
    · exact hkey _ hfits ⟨table, id, hchanged, Or.inl rfl⟩ rfl

/-- Two stores that hold what one description says are the same if they hold
    the same rows. -/
theorem Describes.eq_of_alike (hv : d.Describes layout v.store) (hw : d.Describes layout w.store)
    (hvi : d.Indexed layout v.store) (hwi : d.Indexed layout w.store) (h : v.Alike layout w) :
    v.store = w.store := by
  have hsame : v.store.SameExcept layout
      (fun slot => ∃ table id, False ∧ slot.IsAbout table id) w.store :=
    hv.same_except hw hvi hwi (h.store.imp fun _ => Or.inl)
  refine Contents.ext_get? fun key => (hsame key ?_).symm
  rintro slot - ⟨_, _, hf, -⟩
  exact absurd hf id

end Description

end TableStore
