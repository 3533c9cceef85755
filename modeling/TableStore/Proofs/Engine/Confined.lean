import TableStore.Index
import TableStore.Proofs.Engine.FreeId
import TableStore.Proofs.Key.Families

/-!
# Staying Within a Table

All keys of a table share a prefix, and a statement about the table asks only
for keys with that prefix. What other tables hold can then have no part in what
it does: two stores that agree on the table lead to the same outcome and agree
on the table afterwards, while everything else stays as it is in either.

This is a property of two runs, and it goes along with the text of a dialogue.
A step that asks for a key of the table is answered alike, so both runs go on
with the same answer, and the rule for one dialogue after the other needs no
more than that.

Two requests do not fit at once. Ids are drawn from a source that all tables
share; one that counts keeps a number for each table, and no other number
matters. The count of all keys does depend on other tables, but it only bounds
a search that ends before.

## Main definitions

* `IdSource.AlikeFor`: Sources that count alike for a table.
* `World.AgreesOn`: Surroundings that agree on a table.
* `World.KeepsBeside`: A change of nothing beside a table.
* `Access.Confined`: Two runs that end alike for a table and keep the rest.
* `Access.Isolated`: A dialogue that is confined to a table, wherever two
  surroundings agree on it.

## Theorems

* `Confined.bind`, `Isolated.bind`: One dialogue after the other.
* `isolated_fetch`, `isolated_store`, `isolated_remove`, `isolated_entries`: The
  requests for keys of the table.
* `Catalog.isolated_schema?`, `Index.isolated_moveStored` and so on: The
  functions of the catalog and of the indexes.
-/

namespace TableStore

open Access

/-- Sources that count, and count alike for a table: with the same width, and
    from the same number on. -/
inductive IdSource.AlikeFor (table : String) : IdSource → IdSource → Prop where
  | counter {start start' width : Int} {used used' : Members Int}
      (next : (Members.get? used table).getD start = (Members.get? used' table).getD start') :
      AlikeFor table (.counter start width used) (.counter start' width used')

instance (table : String) : (a b : IdSource) → Decidable (a.AlikeFor table b)
  | .counter start width used, .counter start' width' used' =>
    decidable_of_iff (width = width'
      ∧ (Members.get? used table).getD start = (Members.get? used' table).getD start')
      ⟨fun h => h.1 ▸ .counter h.2, fun h => by cases h with | counter next => exact ⟨rfl, next⟩⟩
  | .random _, _ => isFalse (by rintro ⟨⟩)
  | .supplied _ _, _ => isFalse (by rintro ⟨⟩)
  | .counter _ _ _, .random _ => isFalse (by rintro ⟨⟩)
  | .counter _ _ _, .supplied _ _ => isFalse (by rintro ⟨⟩)

theorem IdSource.AlikeFor.counts {table : String} {a b : IdSource} (h : a.AlikeFor table b) :
    a.Counts ∧ b.Counts := by
  cases h with
  | counter next => exact ⟨trivial, trivial⟩

/-- Surroundings that agree on every key of a table, and whose ids count alike
    for it. -/
structure World.AgreesOn (layout : KeyLayout) (table : String) (w v : World) : Prop where
  store : ∀ key, Bytes.carries (layout.tablePrefix table) key = true →
    w.store.get? key = v.store.get? key
  ids : w.ids.AlikeFor table v.ids

/-- A change of nothing beside a table. -/
def World.KeepsBeside (layout : KeyLayout) (table : String) (w w' : World) : Prop :=
  ∀ key, Bytes.carries (layout.tablePrefix table) key = false →
    w'.store.get? key = w.store.get? key

namespace Access

variable {α β : Type} {layout : KeyLayout} {table : String} {w v : World}

/-- Two runs with the same outcome, which agree on a table afterwards and have
    changed nothing beside it. -/
structure Confined (layout : KeyLayout) (table : String) (x : Access α) (w v : World) : Prop where
  outcome : (x.on w).1 = (x.on v).1
  agrees : (x.on w).2.AgreesOn layout table (x.on v).2
  left : w.KeepsBeside layout table (x.on w).2
  right : v.KeepsBeside layout table (x.on v).2

/-- A dialogue that is confined to a table, wherever two surroundings agree on
    it. -/
def Isolated (layout : KeyLayout) (table : String) (x : Access α) : Prop :=
  ∀ w v : World, w.AgreesOn layout table v → x.Confined layout table w v

/-- A dialogue that ends in the same outcome at once. -/
theorem Confined.at_once {x : Access α} {r : Except Fault α} (hw : x.on w = (r, w))
    (hv : x.on v = (r, v)) (h : w.AgreesOn layout table v) : x.Confined layout table w v := by
  refine ⟨by rw [hw, hv], ?_, ?_, ?_⟩
  · rw [hw, hv]
    exact h
  · rw [hw]
    exact fun _ _ => rfl
  · rw [hv]
    exact fun _ _ => rfl

/-- One dialogue after the other. The second one may use what the first one is
    known to end in. -/
theorem Confined.bind {x : Access α} {f : α → Access β} (hx : x.Confined layout table w v)
    (hf : ∀ a w' v', x.on w = (.ok a, w') → w'.AgreesOn layout table v' →
      (f a).Confined layout table w' v') : (x >>= f).Confined layout table w v := by
  rcases hx with ⟨hout, hagrees, hleft, hright⟩
  -- The first dialogues have one outcome, so both runs end with it or both go on.
  rcases hw : x.on w with ⟨fault | a, w'⟩ <;> rcases hv : x.on v with ⟨fault' | a', v'⟩ <;>
    rw [hw, hv] at hout hagrees <;> rw [hw] at hleft <;> rw [hv] at hright
  · rw [show fault = fault' from Except.error.inj hout] at hw
    refine ⟨?_, ?_, ?_, ?_⟩ <;> simp only [run_bind_error hw, run_bind_error hv]
    · exact hagrees
    · exact hleft
    · exact hright
  · exact absurd hout (by simp)
  · exact absurd hout (by simp)
  · rw [← show a = a' from Except.ok.inj hout] at hv
    have hrest := hf a w' v' hw hagrees
    refine ⟨?_, ?_, fun key hkey => ?_, fun key hkey => ?_⟩ <;>
      simp only [run_bind_ok hw, run_bind_ok hv]
    · exact hrest.outcome
    · exact hrest.agrees
    · exact (hrest.left key hkey).trans (hleft key hkey)
    · exact (hrest.right key hkey).trans (hright key hkey)

theorem Isolated.bind {x : Access α} {f : α → Access β} (hx : x.Isolated layout table)
    (hf : ∀ a, (f a).Isolated layout table) : (x >>= f).Isolated layout table :=
  fun w v h => (hx w v h).bind fun a w' v' _ h' => hf a w' v' h'

theorem isolated_pure (a : α) : (pure a : Access α).Isolated layout table :=
  fun _ _ h => .at_once rfl rfl h

theorem isolated_fail (fault : Fault) : (fail fault : Access α).Isolated layout table :=
  fun _ _ h => .at_once rfl rfl h

theorem isolated_lift (r : Except Fault α) : (lift r).Isolated layout table :=
  fun w v h => .at_once (run_lift r w) (run_lift r v) h

/-- What is there or missing already is an answer or a failure, as the statement asks. -/
theorem isolated_answer (c : Prop) [Decidable c] (a : α) (fault : Fault) :
    (if c then pure a else fail fault : Access α).Isolated layout table := by
  split
  · exact isolated_pure a
  · exact isolated_fail fault

/-- An outcome that the rest goes on with. -/
theorem Isolated.outcome {r : Except Fault α} {f : α → Access β}
    (hf : ∀ a, r = .ok a → (f a).Isolated layout table) :
    (lift r >>= f).Isolated layout table := by
  cases r with
  | ok a => exact hf a rfl
  | error fault => exact isolated_fail fault

/-- The key of a slot, if it can be built. -/
theorem Isolated.slot {a : Slot} {r : Except Fault Bytes} {f : Bytes → Access β}
    (hr : ∀ {key}, r = .ok key → key = a.key layout ∧ a.Fits)
    (hf : (f (a.key layout)).Isolated layout table) : (lift r >>= f).Isolated layout table :=
  .outcome fun _ hkey => (hr hkey).1 ▸ hf

theorem isolated_log (line : String) : (log line).Isolated layout table :=
  fun _ _ h => ⟨rfl, ⟨h.store, h.ids⟩, fun _ _ => rfl, fun _ _ => rfl⟩

theorem isolated_fetch {key : Bytes} (hkey : Bytes.carries (layout.tablePrefix table) key = true) :
    (fetch key).Isolated layout table := by
  intro w v h
  refine .at_once (looks_fetch key w) ?_ h
  rw [h.store key hkey]
  exact looks_fetch key v

/-- A scan within the table finds the same in both stores. -/
theorem isolated_entries {start : Bytes}
    (hstart : ∀ key, Bytes.carries start key = true →
      Bytes.carries (layout.tablePrefix table) key = true) :
    (entries start).Isolated layout table := by
  intro w v h
  refine .at_once (looks_entries start w) ?_ h
  rw [(Contents.filter_eq_iff _).mpr fun key hkey => h.store key (hstart key hkey)]
  exact looks_entries start v

/-- What is read from a part of the table, each of whose keys starts with the table's
    prefix. -/
theorem isolated_readPart {components : List Bytes} {part : Bytes}
    (f : List (Bytes × Bytes) → Except Fault α) :
    (do
      let start ← lift (Key.ofComponents components (layout.tablePrefix table ++ part))
      let found ← entries start
      lift (f found)).Isolated layout table := by
  refine Isolated.outcome fun start hstart => ?_
  rcases Key.ofComponents_ok hstart with ⟨rfl, -⟩
  refine (isolated_entries fun key hkey => Bytes.carries_of_append hkey).bind fun found => ?_
  exact isolated_lift _

theorem isolated_store {key value : Bytes}
    (hkey : Bytes.carries (layout.tablePrefix table) key = true) :
    (store key value).Isolated layout table := by
  have hbeside : ∀ u : World,
      u.KeepsBeside layout table { u with store := u.store.insert key value } := by
    intro u other hother
    refine Contents.get?_insert_other value u.store ?_
    rintro rfl
    rw [hkey] at hother
    exact absurd hother (by simp)
  refine fun w v h => ⟨rfl, ⟨fun other hother => ?_, h.ids⟩, hbeside w, hbeside v⟩
  change (w.store.insert key value).get? other = (v.store.insert key value).get? other
  rw [Contents.get?_insert, Contents.get?_insert, h.store other hother]

theorem isolated_remove {key : Bytes} (hkey : Bytes.carries (layout.tablePrefix table) key = true) :
    (remove key).Isolated layout table := by
  have hbeside : ∀ u : World, u.KeepsBeside layout table { u with store := u.store.erase key } := by
    intro u other hother
    refine Contents.get?_erase_other u.store ?_
    rintro rfl
    rw [hkey] at hother
    exact absurd hother (by simp)
  refine fun w v h => ⟨rfl, ⟨fun other hother => ?_, h.ids⟩, hbeside w, hbeside v⟩
  change (w.store.erase key).get? other = (v.store.erase key).get? other
  rw [Contents.get?_erase, Contents.get?_erase, h.store other hother]

theorem isolated_forList {γ : Type} {f : γ → Access Unit} {s : List γ}
    (h : ∀ a ∈ s, (f a).Isolated layout table) : (forList f s).Isolated layout table := by
  induction s with
  | nil => exact isolated_pure ()
  | cons a s ih =>
    exact (h a List.mem_cons_self).bind fun _ => ih fun b hb => h b (List.mem_cons_of_mem a hb)

theorem isolated_mapList {γ : Type} {f : γ → Access β} {s : List γ}
    (h : ∀ a ∈ s, (f a).Isolated layout table) : (mapList f s).Isolated layout table := by
  induction s with
  | nil => exact isolated_pure []
  | cons a s ih =>
    refine (h a List.mem_cons_self).bind fun b => ?_
    exact (ih fun e he => h e (List.mem_cons_of_mem a he)).bind fun bs => isolated_pure (b :: bs)

/-- A source that counts gives a table the same id, whatever other tables have
    drawn. -/
theorem isolated_drawId : (drawId table).Isolated layout table := by
  rintro ⟨c, ids, notes⟩ ⟨c', ids', notes'⟩ ⟨hstore, hids⟩
  cases hids with
  | counter next =>
    refine ⟨?_, ⟨?_, ?_⟩, ?_, ?_⟩ <;> simp only [drawId_on, IdSource.next]
    · rw [next]
    · exact hstore
    · refine .counter ?_
      rw [Members.get?_set, Members.get?_set, if_pos rfl, if_pos rfl, next, Option.getD_some,
        Option.getD_some]
    · exact fun _ _ => rfl
    · exact fun _ _ => rfl

end Access

variable {layout : KeyLayout} {table : String}

namespace Catalog

theorem isolated_schema? : (schema? layout table).Isolated layout table := by
  refine Isolated.slot KeyLayout.schemaKey?_ok ?_
  refine (isolated_fetch (Slot.carries_own_tablePrefix layout (.schema table))).bind fun answer => ?_
  cases answer with
  | none => exact isolated_pure none
  | some data => exact (isolated_lift _).bind fun stored => isolated_pure (some stored)

theorem isolated_requireSchema : (requireSchema layout table).Isolated layout table := by
  refine isolated_schema?.bind fun found => ?_
  cases found with
  | none => exact isolated_fail _
  | some stored => exact isolated_pure stored

theorem isolated_putSchema (schema : TableSchema) :
    (putSchema layout schema).Isolated layout schema.name := by
  refine Isolated.slot KeyLayout.schemaKey?_ok ?_
  refine Isolated.outcome fun data _ => ?_
  exact isolated_store (Slot.carries_own_tablePrefix layout (.schema schema.name))

theorem isolated_deleteSchema : (deleteSchema layout table).Isolated layout table := by
  refine Isolated.slot KeyLayout.schemaKey?_ok ?_
  exact isolated_remove (Slot.carries_own_tablePrefix layout (.schema table))

theorem isolated_index? (index : String) : (index? layout table index).Isolated layout table := by
  refine Isolated.slot KeyLayout.indexMetaKey?_ok ?_
  refine (isolated_fetch
    (Slot.carries_own_tablePrefix layout (.definition table index))).bind fun answer => ?_
  cases answer with
  | none => exact isolated_pure none
  | some data => exact (isolated_lift _).bind fun stored => isolated_pure (some stored)

theorem isolated_indexes : (indexes layout table).Isolated layout table :=
  isolated_readPart _

theorem isolated_putIndex (index : IndexDefinition) :
    (putIndex layout index).Isolated layout index.table := by
  refine Isolated.slot KeyLayout.indexMetaKey?_ok ?_
  exact isolated_store (Slot.carries_own_tablePrefix layout (.definition index.table index.name))

theorem isolated_deleteIndex (index : String) :
    (deleteIndex layout table index).Isolated layout table := by
  refine Isolated.slot KeyLayout.indexMetaKey?_ok ?_
  exact isolated_remove (Slot.carries_own_tablePrefix layout (.definition table index))

end Catalog

namespace Index

theorem isolated_removeEntry (index : String) (v id : Value) :
    (removeEntry layout table index v id).Isolated layout table := by
  refine Isolated.outcome fun key hkey => ?_
  rcases entryKey_ok hkey with ⟨value, idBytes, -, -, rfl, -⟩
  exact isolated_remove (Slot.carries_own_tablePrefix layout (.entry table index value idBytes))

theorem isolated_addEntry (index : String) (v id : Value) :
    (addEntry layout table index v id).Isolated layout table := by
  refine Isolated.outcome fun key hkey => ?_
  rcases entryKey_ok hkey with ⟨value, idBytes, -, -, rfl, -⟩
  refine Isolated.outcome fun data _ => ?_
  exact isolated_store (Slot.carries_own_tablePrefix layout (.entry table index value idBytes))

theorem isolated_move (index : String) (old new id : Value) :
    (move layout table index old new id).Isolated layout table := by
  rw [move_eq]
  split
  · exact isolated_pure ()
  · refine Isolated.bind ?_ fun _ => ?_
    · split
      · exact isolated_pure ()
      · exact isolated_removeEntry index old id
    · split
      · exact isolated_pure ()
      · exact isolated_addEntry index new id

theorem isolated_moveStored (index : StoredIndex) (old new id : Value) :
    (moveStored layout table index old new id).Isolated layout table := by
  rw [moveStored]
  split
  · exact isolated_pure ()
  · exact Isolated.outcome fun name _ => isolated_move name old new id

theorem isolated_backfill (index column : String) (rows : List (Value × Row)) :
    (backfill layout table index column rows).Isolated layout table := by
  induction rows with
  | nil => exact isolated_pure 0
  | cons p rows ih =>
    rw [backfill]
    split
    · exact ih
    · exact (isolated_addEntry index _ _).bind fun _ => ih.bind fun n => isolated_pure (n + 1)

/-- What a scan within the table has found is removed within the table. -/
theorem isolated_removeAll {start : Bytes}
    (hstart : ∀ key, Bytes.carries start key = true →
      Bytes.carries (layout.tablePrefix table) key = true) :
    (removeAll start).Isolated layout table := by
  intro w v h
  refine (isolated_entries hstart w v h).bind fun found w' v' hfound h' => ?_
  -- All that is removed was found, so it carries the prefix.
  have hcarries : ∀ e ∈ found, Bytes.carries (layout.tablePrefix table) e.1 = true := by
    intro e he
    rw [(looks_entries start w : _ = _)] at hfound
    rw [← Except.ok.inj (Prod.mk.inj hfound).1] at he
    exact hstart _ (List.mem_filter.mp he).2
  exact ((isolated_forList fun e he => isolated_remove (hcarries e he)).bind
    fun _ => isolated_pure found.length) w' v' h'

theorem isolated_clear (index : String) : (clear layout table index).Isolated layout table := by
  refine Isolated.outcome fun start hstart => ?_
  rcases Key.ofComponents_ok hstart with ⟨rfl, -⟩
  exact isolated_removeAll fun key hkey => Bytes.carries_of_append (Bytes.carries_of_append hkey)

theorem isolated_rowIds (index : String) (v : Value) :
    (rowIds layout table index v).Isolated layout table := by
  rw [rowIds]
  split
  · exact isolated_pure []
  · refine Isolated.outcome fun start hstart => ?_
    rcases KeyLayout.indexValuePrefix_ok hstart with ⟨value, rfl⟩
    refine (isolated_entries fun key hkey => ?_).bind fun found => isolated_lift _
    exact Bytes.carries_of_append (Bytes.carries_of_append (Bytes.carries_of_append hkey))

end Index

end TableStore
