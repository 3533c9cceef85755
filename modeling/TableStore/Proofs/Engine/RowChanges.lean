import TableStore.Proofs.Engine.Twins

/-!
# Rows That Are Changed

An update and a removal go through the rows that were found and change one after
the other. What they leave is said by the rows alone: the ones that were changed
are replaced or gone, and all others are where they were. A removal goes through
to its end. An update can come to a row on which an assignment fails; then the
rows before it have been changed, and this one and the rows after it have not.

The plain forms of the statements, which know of no indexes, are looked at here.
That the statements themselves do the same to rows is known already, and which
entries they change follows from the rows.

## Main definitions

* `StoredSchema.rewrite`: The row that an update leaves of an old one.
* `World.ChangesRows`: A step that changes the rows of a list.
* `World.RewritesUpTo`: An update that fails at a row.

## Theorems

* `Engine.updateRows_yields`, `deleteRows_yields`: The changes of found rows.
* `Contents.HoldsRows.changed`: The rows of a table after such a change.
* `Statement.update_yields`, `delete_yields`, `select_yields`: The plain forms.
-/

namespace TableStore

open Access

variable {layout : KeyLayout} {d : Description} {table : String} {w w' : World}

/-- The row that an update leaves of an old one. If an assignment fails it is
    the old one. -/
def StoredSchema.rewrite (schema : StoredSchema) (assignments : List Assignment) (old : Row) :
    Row :=
  match assignRow schema old old assignments with
  | .ok row => row
  | .error _ => old

/-- A row on which no assignment fails, and whose new form can be written. -/
def StoredSchema.CanRewrite (schema : StoredSchema) (assignments : List Assignment) (old : Row) :
    Prop :=
  assignRow schema old old assignments = .ok (schema.rewrite assignments old)
    ∧ ∃ data, (schema.rewrite assignments old).toBytes = .ok data

/-- A step that changes the rows of a list and nothing else, with what it leaves
    of each. -/
structure World.ChangesRows (layout : KeyLayout) (table : String)
    (left : String × Row → Option Row) (part : List (String × Row)) (w w' : World) : Prop where
  steps : w.StepsWithin layout (fun slot => ∃ p ∈ part, slot = .row table (Text.encode p.1)) w'
  stored : ∀ p ∈ part, w'.store.get? ((Slot.row table (Text.encode p.1)).key layout)
    = (left p).map Row.bytes

namespace World.ChangesRows

variable {left : String × Row → Option Row} {p : String × Row} {part : List (String × Row)}

theorem nil (left : String × Row → Option Row) (w : World) : w.ChangesRows layout table left [] w :=
  ⟨World.StepsWithin.refl _ w, fun p hp => absurd hp (by simp)⟩

/-- A change of one row before the changes of the others. -/
theorem cons {c : Contents}
    (hfits : ∀ q ∈ p :: part, (Slot.row table (Text.encode q.1)).Fits)
    (hnodup : ((p :: part).map Prod.fst).Nodup)
    (hfirst : w.store.SameExcept layout (Slot.row table (Text.encode p.1) = ·) c)
    (hget : c.get? ((Slot.row table (Text.encode p.1)).key layout) = (left p).map Row.bytes)
    (hrest : World.ChangesRows layout table left part { w with store := c } w') :
    w.ChangesRows layout table left (p :: part) w' where
  steps := by
    have hstep : w.StepsWithin layout (Slot.row table (Text.encode p.1) = ·) { w with store := c } :=
      ⟨hfirst, rfl, rfl⟩
    refine (hstep.imp ?_).trans (hrest.steps.imp ?_)
    · rintro _ rfl
      exact ⟨p, List.mem_cons_self, rfl⟩
    · rintro _ ⟨q, hq, rfl⟩
      exact ⟨q, List.mem_cons_of_mem _ hq, rfl⟩
  stored q hq := by
    rcases List.mem_cons.mp hq with rfl | hmem
    · -- Ids do not repeat, so the later changes leave this row alone.
      rw [hrest.steps.store.get?_slot (hfits q hq), hget]
      rintro ⟨q', hq', heq⟩
      rw [Slot.row.injEq] at heq
      rw [List.map_cons, List.nodup_cons] at hnodup
      exact hnodup.1 (List.mem_map.mpr ⟨q', hq', (Text.encode_injective heq.2).symm⟩)
    · exact hrest.stored q hmem

end World.ChangesRows

/-- An update that fails at a row: the rows before it are changed, and nothing
    else is. -/
structure World.RewritesUpTo (layout : KeyLayout) (table : String) (schema : StoredSchema)
    (assignments : List Assignment) (fault : Fault) (found done : List (String × Row))
    (failing : String × Row) (w w' : World) : Prop where
  position : ∃ later, found = done ++ failing :: later
  fails : assignRow schema failing.2 failing.2 assignments = .error fault
  rewritten : ∀ p ∈ done, schema.CanRewrite assignments p.2
  changes : w.ChangesRows layout table (fun p => some (schema.rewrite assignments p.2)) done w'

namespace Engine

variable {schema : StoredSchema} {part : List (String × Row)}

theorem rewrite_eq {assignments : List Assignment} {old row : Row}
    (h : assignRow schema old old assignments = .ok row) : schema.rewrite assignments old = row := by
  rw [StoredSchema.rewrite, h]

/-- What changing the found rows leaves. -/
theorem updateRows_yields {assignments : List Assignment}
    (hfits : ∀ p ∈ part, (Slot.row table (Text.encode p.1)).Fits)
    (hnodup : (part.map Prod.fst).Nodup) :
    ((Engine.mk layout false).updateRows table schema assignments [] (part.map asFound)).Yields w
      (fun fault w' => fault.IsLimit
        ∨ ∃ done p, w.RewritesUpTo layout table schema assignments fault part done p w')
      fun n w' => n = part.length ∧ (∀ p ∈ part, schema.CanRewrite assignments p.2)
        ∧ w.ChangesRows layout table (fun p => some (schema.rewrite assignments p.2)) part w' := by
  induction part generalizing w with
  | nil => exact yields_pure ⟨rfl, fun p hp => absurd hp (by simp), .nil _ w⟩
  | cons p part ih =>
    have hp := hfits p List.mem_cons_self
    rw [List.map_cons, asFound, updateRows]
    refine Yields.outcome (fun fault hfault => Or.inr ⟨[], p, ⟨part, rfl⟩, hfault,
      fun q hq => absurd hq (by simp), .nil _ w⟩) fun row hrow => ?_
    rw [moveEntries_nil, pure_bind, rowKey_bind hp]
    refine Yields.outcome (fun fault hfault => Or.inl (Or.inl (Row.toBytes_error hfault)))
      fun data hdata => ?_
    have hfirst : schema.CanRewrite assignments p.2 := by
      rw [StoredSchema.CanRewrite, rewrite_eq hrow]
      exact ⟨hrow, data, hdata⟩
    have hbytes : some data = (some (schema.rewrite assignments p.2)).map Row.bytes := by
      rw [Option.map_some, rewrite_eq hrow, Row.bytes_eq hdata]
    -- The rows that the recursion changes may be all of the rest or the first of it.
    have hcons : ∀ {rest w'}, (∀ q ∈ p :: rest, (Slot.row table (Text.encode q.1)).Fits) →
        ((p :: rest).map Prod.fst).Nodup →
        World.ChangesRows layout table (fun p => some (schema.rewrite assignments p.2)) rest
          { w with store := w.store.insert ((Slot.row table (Text.encode p.1)).key layout) data } w' →
        w.ChangesRows layout table (fun p => some (schema.rewrite assignments p.2)) (p :: rest) w' :=
      fun hfits hnodup => .cons hfits hnodup (Contents.SameExcept.insert hp rfl data)
        ((Contents.get?_insert_self _ _ _).trans hbytes)
    refine Yields.store (Yields.bind ((ih (fun q hq => hfits q (List.mem_cons_of_mem p hq))
      (List.nodup_cons.mp hnodup).2).imp ?_ fun _ _ h => h) ?_)
    · rintro fault w' (hlimit | ⟨done, q, ⟨later, rfl⟩, hfails, hdone, hchanges⟩)
      · exact Or.inl hlimit
      · refine Or.inr ⟨p :: done, q, ⟨later, rfl⟩, hfails, List.forall_mem_cons.mpr ⟨hfirst, hdone⟩,
          hcons (fun r hr => hfits r ?_) (hnodup.sublist ?_) hchanges⟩
        · rw [← List.cons_append]
          exact List.mem_append_left _ hr
        · exact ((List.sublist_append_left done _).cons_cons p).map Prod.fst
    · rintro n w' ⟨rfl, hpart, hchanges⟩
      exact yields_pure ⟨rfl, List.forall_mem_cons.mpr ⟨hfirst, hpart⟩, hcons hfits hnodup hchanges⟩

/-- What removing the found rows leaves. It cannot fail. -/
theorem deleteRows_yields (hfits : ∀ p ∈ part, (Slot.row table (Text.encode p.1)).Fits)
    (hnodup : (part.map Prod.fst).Nodup) :
    ((Engine.mk layout false).deleteRows table [] (part.map asFound)).Yields w (fun _ _ => False)
      fun n w' => n = part.length ∧ w.ChangesRows layout table (fun _ => none) part w' := by
  induction part generalizing w with
  | nil => exact yields_pure ⟨rfl, .nil _ w⟩
  | cons p part ih =>
    have hp := hfits p List.mem_cons_self
    rw [List.map_cons, asFound, deleteRows, moveEntries_nil, pure_bind, rowKey_bind hp]
    refine Yields.remove (Yields.bind (ih (fun q hq => hfits q (List.mem_cons_of_mem p hq))
      (List.nodup_cons.mp hnodup).2) ?_)
    rintro n w' ⟨rfl, hchanges⟩
    exact yields_pure ⟨rfl, .cons hfits hnodup (Contents.SameExcept.erase hp rfl)
      (Contents.get?_erase_self _ _) hchanges⟩

end Engine

/-- The rows of a table when some of them have been changed. -/
def changedRows (left : String × Row → Option Row) (part rows : List (String × Row)) :
    List (String × Row) :=
  rows.filterMap fun p => if p ∈ part then (left p).map (Prod.mk p.1) else some p

section

variable {left : String × Row → Option Row} {part rows : List (String × Row)}

theorem mem_changedRows {q : String × Row} : q ∈ changedRows left part rows
    ↔ (q ∈ rows ∧ q ∉ part) ∨ ∃ p ∈ rows, p ∈ part ∧ ∃ row, left p = some row ∧ q = (p.1, row) := by
  rw [changedRows, List.mem_filterMap]
  constructor
  · rintro ⟨p, hp, hq⟩
    split at hq
    · rename_i hmem
      rcases Option.map_eq_some_iff.mp hq with ⟨row, hrow, rfl⟩
      exact Or.inr ⟨p, hp, hmem, row, hrow, rfl⟩
    · rename_i hmem
      rw [← Option.some.inj hq]
      exact Or.inl ⟨hp, hmem⟩
  · rintro (⟨hq, hmem⟩ | ⟨p, hp, hmem, row, hrow, rfl⟩)
    · exact ⟨q, hq, if_neg hmem⟩
    · exact ⟨p, hp, by rw [if_pos hmem, hrow]; rfl⟩

/-- Changed rows keep their ids and the order of these. -/
theorem pairwise_changedRows {order : String → String → Prop}
    (h : rows.Pairwise fun p q => order p.1 q.1) :
    (changedRows left part rows).Pairwise fun p q => order p.1 q.1 := by
  have hid : ∀ {p q : String × Row},
      (if p ∈ part then (left p).map (Prod.mk p.1) else some p) = some q → q.1 = p.1 := by
    intro p q hq
    split at hq
    · rcases Option.map_eq_some_iff.mp hq with ⟨row, -, rfl⟩
      rfl
    · rw [Option.some.inj hq]
  refine List.Pairwise.filterMap _ (fun p q hpq p' hp' q' hq' => ?_) h
  rw [hid hp', hid hq']
  exact hpq

theorem changedRows_some (f : String × Row → Row) :
    changedRows (fun p => some (f p)) part rows
      = rows.map fun p => if p ∈ part then (p.1, f p) else p := by
  rw [changedRows, ← List.filterMap_eq_map]
  refine List.filterMap_congr fun p _ => ?_
  dsimp only [Function.comp]
  split <;> rfl

theorem changedRows_none :
    changedRows (fun _ => none) part rows = rows.filter fun p => p ∉ part := by
  rw [changedRows, ← List.filterMap_eq_filter]
  refine List.filterMap_congr fun p _ => ?_
  by_cases hp : p ∈ part
  · rw [if_pos hp, Option.guard_eq_none_iff.mpr (by simpa using hp)]
    rfl
  · rw [if_neg hp, Option.guard_eq_some_iff.mpr ⟨rfl, by simpa using hp⟩]

end

namespace Contents.HoldsRows

variable {c c' : Contents} {schema : TableSchema} {left : String × Row → Option Row}
  {part rows : List (String × Row)}

/-- What is found under the keys of a table's rows when some of them have been
    changed. -/
theorem get?_changed_iff (h : c.HoldsRows layout table schema rows)
    (hname : Key.fits (Text.encode table) = true) (hpart : part ⊆ rows)
    (hsame : c.SameExcept layout (fun slot => ∃ p ∈ part, slot = .row table (Text.encode p.1)) c')
    (hstored : ∀ p ∈ part, c'.get? ((Slot.row table (Text.encode p.1)).key layout)
      = (left p).map Row.bytes) {key value : Bytes} :
    (c'.get? key = some value ∧ Bytes.carries (layout.rowPrefix table) key = true)
      ↔ ∃ q ∈ changedRows left part rows, rowEntry layout table q = (key, value) := by
  constructor
  · rintro ⟨hget, hcarries⟩
    -- A key has the value that a change gave it, or the one that it had before.
    by_cases hkey : ∃ p ∈ part, key = (Slot.row table (Text.encode p.1)).key layout
    · rcases hkey with ⟨p, hp, rfl⟩
      rw [hstored p hp] at hget
      rcases Option.map_eq_some_iff.mp hget with ⟨row, hrow, rfl⟩
      exact ⟨(p.1, row), mem_changedRows.mpr (Or.inr ⟨p, hpart hp, hp, row, hrow, rfl⟩), rfl⟩
    · have hbefore : c.get? key = some value := by
        rw [← hsame key, hget]
        rintro _ - ⟨p, hp, rfl⟩ heq
        exact hkey ⟨p, hp, heq⟩
      have hentry : (key, value) ∈ rows.map (rowEntry layout table) := by
        rw [← h.scan]
        exact List.mem_filter.mpr ⟨Contents.mem_entries.mpr hbefore, hcarries⟩
      rcases List.mem_map.mp hentry with ⟨q, hq, heq⟩
      refine ⟨q, mem_changedRows.mpr (Or.inl ⟨hq, fun hmem => ?_⟩), heq⟩
      exact hkey ⟨q, hmem, (congrArg Prod.fst heq).symm⟩
  · rintro ⟨q, hq, heq⟩
    rcases Prod.mk.inj heq with ⟨rfl, rfl⟩
    have hcarries : ∀ p ∈ rows, Bytes.carries (layout.rowPrefix table)
        ((Slot.row table (Text.encode p.1)).key layout) = true :=
      fun p hp => (Slot.carries_rowPrefix (h.filed p hp).fits hname).mpr ⟨_, rfl⟩
    rcases mem_changedRows.mp hq with ⟨hmem, hnot⟩ | ⟨p, hp, hmem, row, hrow, rfl⟩
    · refine ⟨?_, hcarries q hmem⟩
      rw [hsame.get?_slot (h.filed q hmem).fits, h.get?_row hmem]
      rintro ⟨p, hp, heq⟩
      rw [Slot.row.injEq] at heq
      -- Rows with one id are one row.
      have heq : q = p :=
        List.inj_on_of_nodup_map h.nodup hmem (hpart hp) (Text.encode_injective heq.2)
      exact hnot (heq ▸ hp)
    · refine ⟨?_, hcarries p hp⟩
      rw [hstored p hmem, hrow]
      rfl

/-- The rows of a table when some of them have been changed. -/
theorem changed (h : c.HoldsRows layout table schema rows)
    (hname : Key.fits (Text.encode table) = true) (hpart : part ⊆ rows)
    (hsame : c.SameExcept layout (fun slot => ∃ p ∈ part, slot = .row table (Text.encode p.1)) c')
    (hstored : ∀ p ∈ part, c'.get? ((Slot.row table (Text.encode p.1)).key layout)
      = (left p).map Row.bytes)
    (hfiled : ∀ p ∈ part, ∀ row, left p = some row → FiledRow table schema (p.1, row)) :
    c'.HoldsRows layout table schema (changedRows left part rows) where
  scan := by
    refine Ascending.eq_of_mem_iff (c'.ascending.sublist List.filter_sublist) ?_ ?_
    · rw [Ascending, List.pairwise_map]
      refine List.Pairwise.imp rowEntry_lt_iff.mpr (@pairwise_changedRows left part rows (fun a b =>
        Key.encodeComponent (Text.encode a) < Key.encodeComponent (Text.encode b)) h.ascending)
    · rintro ⟨key, value⟩
      rw [List.mem_filter, Contents.mem_entries, List.mem_map]
      exact h.get?_changed_iff hname hpart hsame hstored
  filed q hq := by
    rcases mem_changedRows.mp hq with ⟨hmem, -⟩ | ⟨p, -, hmem, row, hrow, rfl⟩
    · exact h.filed q hmem
    · exact hfiled p hmem row hrow

end Contents.HoldsRows

namespace Statement

variable {schema : StoredSchema} {declared : TableSchema} {rows : List (String × Row)}
  {find : List Condition → Except Fault (List (Value × Row))} {conditions : List Condition}

/-- A removal that fails has changed nothing, and one that does not fail has
    removed the rows that satisfy the conditions. -/
theorem delete_yields (hfind : FindsAlways rows find)
    (h : w.store.HoldsRows layout table declared rows) :
    ((delete table conditions).plainly layout schema find).Yields w (fun _ w' => w' = w)
      fun result w' => ∃ bound, bindConditions schema conditions = .ok bound
        ∧ find bound = .ok ((rows.filter (isMatch bound)).map asFound)
        ∧ result = { affected := (rows.filter (isMatch bound)).length }
        ∧ w.ChangesRows layout table (fun _ => none) (rows.filter (isMatch bound)) w' := by
  refine Yields.outcome (fun _ _ => rfl) fun bound hbound => ?_
  refine Yields.outcome (fun _ _ => rfl) fun found hfound => ?_
  obtain rfl := (hfind bound).eq_filter hfound
  refine Yields.bind ((Engine.deleteRows_yields
    (fun p hp => (h.filed p (List.mem_of_mem_filter hp)).fits)
    (h.nodup.sublist (List.filter_sublist.map _))).imp (fun _ _ hf => hf.elim) fun _ _ h => h) ?_
  rintro n w' ⟨rfl, hchanges⟩
  exact yields_pure ⟨bound, hbound, hfound, rfl, hchanges⟩

/-- An update that fails has changed nothing, or it has changed the rows before
    one on which an assignment fails. One that does not fail has changed all rows
    that satisfy the conditions. -/
theorem update_yields {assignments : List Assignment} (hfind : FindsAlways rows find)
    (h : w.store.HoldsRows layout table declared rows) :
    ((update table assignments conditions).plainly layout schema find).Yields w
      (fun fault w' => fault.IsLimit ∨ w' = w
        ∨ ∃ bound, bindConditions schema conditions = .ok bound
          ∧ ∃ done p, w.RewritesUpTo layout table schema assignments fault
            (rows.filter (isMatch bound)) done p w')
      fun result w' => ∃ bound, bindConditions schema conditions = .ok bound
        ∧ find bound = .ok ((rows.filter (isMatch bound)).map asFound)
        ∧ result = { affected := (rows.filter (isMatch bound)).length }
        ∧ (∀ p ∈ rows.filter (isMatch bound), schema.CanRewrite assignments p.2)
        ∧ w.ChangesRows layout table (fun p => some (schema.rewrite assignments p.2))
          (rows.filter (isMatch bound)) w' := by
  refine Yields.outcome (fun _ _ => Or.inr (Or.inl rfl)) fun bound hbound => ?_
  -- The assignments have been checked before the conditions.
  rcases exists_of_bind_eq_ok hbound with ⟨_, -, hbound⟩
  refine Yields.outcome (fun _ _ => Or.inr (Or.inl rfl)) fun found hfound => ?_
  obtain rfl := (hfind bound).eq_filter hfound
  refine Yields.bind ((Engine.updateRows_yields
    (fun p hp => (h.filed p (List.mem_of_mem_filter hp)).fits)
    (h.nodup.sublist (List.filter_sublist.map _))).imp ?_ fun _ _ h => h) ?_
  · rintro fault w' (hlimit | hupTo)
    · exact Or.inl hlimit
    · exact Or.inr (Or.inr ⟨bound, hbound, hupTo⟩)
  · rintro n w' ⟨rfl, hcan, hchanges⟩
    exact yields_pure ⟨bound, hbound, hfound, rfl, hcan, hchanges⟩

end Statement

end TableStore
