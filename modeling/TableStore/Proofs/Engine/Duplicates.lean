import TableStore.Proofs.Engine.Identity
import TableStore.Proofs.Value.Text

/-!
# Keys That Are Taken

An insertion that supplies a key is refused if a row has the text of the key as
its id. That the row has the key itself does not follow. A row without a key is
filed under an id that was drawn, and a drawn id may be the text of a key that
no row has. Drawing avoids the keys that are there; nothing makes a key avoid
the ids that were drawn. So the first key of a counted table may be refused, and
it is said to be a duplicate.

Where the row that is in the way does have a key, this is the key that was
supplied, as far as the column is of a checked type.

## Main definitions

* `WithoutDuplicate`: Outcomes other than that a key is taken.
* `Contents.Takes`: A store in which a row has the text of a key as its id.
* `Fault.DuplicateOnly`: A fault that says that a key is taken only if it is.

## Theorems

* `Engine.insert_duplicate`: When a key is found to be taken.
* `Executed.duplicate_key_taken`: What the row that is in the way has as its key.
-/

namespace TableStore

open Access

variable {d : Description} {layout : KeyLayout} {history : History} {w : World}
  {table : String} {schema : TableSchema}

/-- An outcome that is not that a key is taken. -/
def WithoutDuplicate {α : Type} (r : Except Fault α) : Prop :=
  ∀ table id, r ≠ .error (.duplicateKey table id)

section Outcomes

variable {α β : Type}

theorem withoutDuplicate_ok (a : α) : WithoutDuplicate (.ok a) :=
  fun _ _ h => absurd h (by simp)

theorem WithoutDuplicate.bind {x : Except Fault α} {f : α → Except Fault β} (hx : WithoutDuplicate x)
    (hf : ∀ a, WithoutDuplicate (f a)) : WithoutDuplicate (x >>= f) := by
  intro table id h
  rcases bind_eq_error h with hfault | ⟨a, -, hfault⟩
  · exact hx table id hfault
  · exact hf a table id hfault

theorem Json.requireKey_withoutDuplicate (name : Json) : WithoutDuplicate name.requireKey := by
  intro table id h
  unfold requireKey at h
  split at h <;> exact absurd h (by simp)

theorem typeMismatch_withoutDuplicate (column expected : String) (v : Value) :
    WithoutDuplicate (.error (typeMismatch column expected v) : Except Fault α) := by
  unfold typeMismatch
  split <;> exact fun _ _ h => absurd h (by simp)

theorem Value.coerceTo_withoutDuplicate (type : ColumnType) (column : String) (v : Value) :
    WithoutDuplicate (v.coerceTo type column) := by
  cases type <;> cases v
  case integer.float d =>
    simp only [coerceTo]
    split
    · exact withoutDuplicate_ok _
    · exact typeMismatch_withoutDuplicate _ _ _
  case float.int n =>
    simp only [coerceTo]
    split
    · exact withoutDuplicate_ok _
    · exact fun _ _ h => absurd h (by simp)
  all_goals first
    | exact withoutDuplicate_ok _
    | exact typeMismatch_withoutDuplicate _ _ _

theorem Value.coerce_withoutDuplicate (typeName column : String) (v : Value) :
    WithoutDuplicate (v.coerce typeName column) := by
  unfold coerce
  split
  · exact withoutDuplicate_ok _
  · split
    · exact v.coerceTo_withoutDuplicate _ _
    · exact withoutDuplicate_ok _

theorem checkColumns_withoutDuplicate (schema : StoredSchema) (table : String) (names : List Json) :
    WithoutDuplicate (checkColumns schema table names) := by
  induction names with
  | nil => exact withoutDuplicate_ok ()
  | cons name names ih =>
    rw [checkColumns]
    split
    · exact ih
    · exact fun _ _ h => absurd h (by simp)

theorem StoredColumn.coerce_withoutDuplicate (column : StoredColumn) (v : Value) :
    WithoutDuplicate (column.coerce v) := by
  unfold StoredColumn.coerce
  split
  · exact v.coerce_withoutDuplicate _ _
  · exact withoutDuplicate_ok v

/-- The values of a new row are put together without a look at other rows. -/
theorem buildRow_withoutDuplicate (supplied row : Fields Value) (columns : List StoredColumn) :
    WithoutDuplicate (buildRow supplied row columns) := by
  induction columns generalizing row with
  | nil => exact withoutDuplicate_ok row
  | cons column columns ih =>
    refine .bind ((Json.requireKey_withoutDuplicate _).bind fun _ => withoutDuplicate_ok _) fun _ => ?_
    refine .bind (column.coerce_withoutDuplicate _) fun _ => ?_
    refine .bind ((Json.requireKey_withoutDuplicate _).bind fun _ => withoutDuplicate_ok _) fun _ => ?_
    exact ih _

theorem primaryValue?_withoutDuplicate (schema : StoredSchema) (row : Fields Value) :
    WithoutDuplicate (primaryValue? schema row) := by
  unfold primaryValue?
  split
  · exact withoutDuplicate_ok none
  · refine .bind ((Json.requireKey_withoutDuplicate _).bind fun _ => withoutDuplicate_ok _) fun _ => ?_
    exact withoutDuplicate_ok _

end Outcomes

/-- A store in which a row has the text of a key as its id. -/
structure Contents.Takes (c : Contents) (layout : KeyLayout) (table : String) (v : Value) (id : String) :
    Prop where
  hasText : v.hasText = true
  toText : v.toText = id
  fits : (Slot.row table (Text.encode id)).Fits
  stored : ∃ data, c.get? ((Slot.row table (Text.encode id)).key layout) = some data

/-- A store in which the key that is supplied for a table is taken in the form of its
    column, by a row with the id that is reported. -/
def Contents.TakesGiven (c : Contents) (layout : KeyLayout) (table : String) (schema : TableSchema)
    (p : String) (given : Value) (reported id : String) : Prop :=
  reported = table ∧ ∃ column ∈ schema.columns, column.name = p
    ∧ ∃ v, given.coerce column.typeName p = .ok v ∧ c.Takes layout table v id

/-- A fault that says that a key is taken only if that is so. -/
def Fault.DuplicateOnly (fault : Fault) (taken : String → String → Prop) : Prop :=
  ∀ table id, fault = .duplicateKey table id → taken table id

theorem WithoutDuplicate.only {α : Type} {r : Except Fault α} (h : WithoutDuplicate r) {fault : Fault}
    (hr : r = .error fault) (taken : String → String → Prop) : fault.DuplicateOnly taken := by
  rintro table id rfl
  exact absurd hr (h table id)

theorem Fault.IsLimit.only {fault : Fault} (h : fault.IsLimit) (taken : String → String → Prop) :
    fault.DuplicateOnly taken := by
  rintro table id rfl
  rcases h with h | h <;> exact absurd h (by simp)

namespace Index

/-- Only a limit is in the way of the entry of a new row. -/
theorem moveStored_new (index : IndexDefinition) (v : Value) (id : String) :
    (moveStored layout table index.stored .null v (.text id)).Succeeds w fun _ _ => True := by
  rw [moveStored_stored, move_eq]
  split
  · exact yields_pure trivial
  · refine (yields_pure trivial : Succeeds (pure ()) w fun _ _ => True).bind fun _ w' _ => ?_
    split
    · exact yields_pure trivial
    · rename_i hnull
      refine (entryKey_succeeds (Bool.eq_false_iff.mpr hnull) id).bind fun _ _ _ => ?_
      exact yields_store trivial

end Index

namespace Engine

variable {engine : Engine}

theorem addEntries_new (row : Fields Value) (id : String) (indexes : List IndexDefinition) :
    (engine.addEntries table row id (indexes.map IndexDefinition.stored)).Succeeds w
      fun _ _ => True := by
  induction indexes generalizing w with
  | nil => exact yields_pure trivial
  | cons index indexes ih =>
    rw [addEntries, List.map_cons, forList]
    have hmoved := @Index.moveStored_new engine.layout w table index
      ((row.get? (.text index.column)).getD .null) id
    exact hmoved.bind fun _ _ _ => ih

/-- A key is taken if a row has its text as an id. -/
theorem newRowId_duplicate (v : Value) :
    (engine.newRowId table (some v)).Yields w
      (fun fault _ => fault.DuplicateOnly fun t id =>
        t = table ∧ w.store.Takes engine.layout table v id)
      fun _ _ => True := by
  rw [newRowId]
  split
  · exact yields_fail (Fault.IsLimit.only (Or.inl rfl) _)
  · rename_i htext
    refine Yields.outcome (fun fault hfault => ?_) fun key hkey => ?_
    · exact Fault.IsLimit.only (Or.inr (Key.ofComponents_error hfault)) _
    · rcases KeyLayout.rowKey?_ok hkey with ⟨rfl, hfits⟩
      refine Yields.look (looks_fetch _ w) ?_
      rcases hget : w.store.get? ((Slot.row table (Text.encode v.toText)).key engine.layout)
        with _ | data
      · exact yields_pure trivial
      · -- The key that is taken is the one that the fault names.
        refine yields_fail fun t id heq => ?_
        rw [Fault.duplicateKey.injEq] at heq
        rcases heq with ⟨rfl, rfl⟩
        exact ⟨rfl, by simpa using htext, rfl, hfits, data, hget⟩

/-- A row is put together before anything is known about its id. What can go wrong
    until then is not that a key is taken. -/
theorem fileRow_of_built (hd : d.Describes engine.layout w.store)
    (ht : d.tables table = some schema) {columns : Option (List String)} {values : List Value}
    (hnodup : ∀ names, columns = some names → names.Nodup) (hvalues : ∀ v ∈ values, v.IsDenoted)
    {failed : Fault → World → Prop} {post : Fields Value × String → World → Prop}
    (hfailed : ∀ fault, (∀ taken, fault.DuplicateOnly taken) → failed fault w)
    (hbuilt : ∀ members key, schema.Supplies ((columns.getD schema.names).zip values) members →
      primaryValue? schema.stored (Members.toFields members) = .ok key →
      (do
        let id ← engine.newRowId table key
        let row := (Members.toFields members).set (.string rowIdMember) (.text rowIdMember) (.text id)
        let place ← lift (engine.layout.rowKey? table (Text.encode id))
        let data ← lift (Row.toBytes row.toMembers)
        store place data
        pure (row, id)).Yields w failed post) :
    (engine.fileRow table columns values).Yields w failed post := by
  have hwell := hd.wellFormed.schema_wellFormed table schema ht
  rcases hd.wellFormed.schema_bytes table schema ht with ⟨bytes, hbytes⟩
  -- No check before the row is built looks for a duplicate.
  refine Yields.look (Catalog.looks_requireSchema hd ht) ?_
  dsimp only
  rw [TableSchema.columnNames_getD]
  split
  · exact yields_fail (hfailed _ fun _ _ _ h => absurd h (by simp))
  · rename_i hlength
    rw [ne_eq, not_not, List.length_map] at hlength
    rcases ofList_supplied (hwell.nodup_getD hnodup) hlength with ⟨hsupplied, hapart⟩
    rw [hsupplied, lift_ok_bind]
    refine Yields.outcome (fun fault hfault => hfailed fault ?_) fun _ _ => ?_
    · exact (checkColumns_withoutDuplicate _ _ _).only hfault
    refine Yields.outcome (fun fault hfault => hfailed fault ?_) fun built hbuild => ?_
    · exact (buildRow_withoutDuplicate _ _ _).only hfault
    have hregular : ∀ member ∈ (columns.getD schema.names).zip values, member.2.IsRegular :=
      fun member hmember => (hvalues _ (List.of_mem_zip hmember).2).isRegular
    rcases supplies_of_buildRow hwell hbytes hapart hregular hbuild with ⟨members, rfl, hsupplies⟩
    refine Yields.outcome (fun fault hfault => hfailed fault ?_) fun key hkey => ?_
    · exact (primaryValue?_withoutDuplicate _ _).only hfault
    exact hbuilt members key hsupplies hkey

/-- When filing a row ends with a key that is taken. -/
theorem fileRow_duplicate (hd : d.Describes engine.layout w.store)
    (ht : d.tables table = some schema) {p : String} (hp : schema.primaryKey = some p)
    {columns : Option (List String)} {values : List Value}
    (hnodup : ∀ names, columns = some names → names.Nodup) (hvalues : ∀ v ∈ values, v.IsDenoted)
    {given : Value} (hgiven : (p, given) ∈ (columns.getD schema.names).zip values)
    (hnull : given.isNull = false) :
    (engine.fileRow table columns values).Yields w
      (fun fault _ => fault.DuplicateOnly
        (w.store.TakesGiven engine.layout table schema p given))
      fun _ _ => True := by
  have hwell := hd.wellFormed.schema_wellFormed table schema ht
  rcases List.mem_map.mp (hwell.key_mem p hp) with ⟨column, hcolumn, rfl⟩
  refine fileRow_of_built hd ht hnodup hvalues (fun fault honly => honly _) ?_
  intro members found hsupplies hfound
  have hcoerce := hsupplies column hcolumn given hgiven
  -- All else that can fail does not look at other rows; the new id does.
  rw [primaryValue?_toFields hfound hp (Value.isNull_of_coerce hnull hcoerce)]
  refine ((newRowId_duplicate _).imp ?_ fun _ _ h => h).bind ?_
  · rintro fault _ honly t id rfl
    rcases honly t id rfl with ⟨rfl, htaken⟩
    exact ⟨rfl, column, hcolumn, rfl, _, hcoerce, htaken⟩
  · intro id w' _
    refine Yields.outcome (fun fault hfault => ?_) fun key _ => ?_
    · exact Fault.IsLimit.only (Or.inr (Key.ofComponents_error hfault)) _
    refine Yields.outcome (fun fault hfault => ?_) fun data _ => ?_
    · exact Fault.IsLimit.only (Or.inl (Row.toBytes_error hfault)) _
    exact Yields.store (yields_pure trivial)

/-- When an insertion ends with a key that is taken. -/
theorem insert_duplicate (hd : d.Describes engine.layout w.store)
    (ht : d.tables table = some schema) {p : String} (hp : schema.primaryKey = some p)
    {columns : Option (List String)} {values : List Value}
    (hnodup : ∀ names, columns = some names → names.Nodup) (hvalues : ∀ v ∈ values, v.IsDenoted)
    {given : Value} (hgiven : (p, given) ∈ (columns.getD schema.names).zip values)
    (hnull : given.isNull = false) :
    (engine.insert table columns values).Yields w
      (fun fault _ => fault.DuplicateOnly
        (w.store.TakesGiven engine.layout table schema p given))
      fun _ _ => True := by
  have hyields := fileRow_duplicate hd ht hp hnodup hvalues hgiven hnull
  have hdescribes := @fileRow_describes d table w engine hd columns values hvalues
  rcases hfile : (engine.fileRow table columns values).on w with ⟨fault | filed, w₁⟩
  · exact Or.inl ⟨fault, w₁, run_bind_error hfile, hyields.of_error hfile⟩
  · -- Once the row is filed only a limit can stop the insertion.
    rw [hfile] at hdescribes
    rcases Catalog.looks_indexes hdescribes (hd.wellFormed.schema_fits table schema ht) with
      ⟨indexes, -, hlooks⟩
    refine Yields.ran hfile (Yields.look hlooks ?_)
    refine ((addEntries_new _ _ indexes).imp (fun fault _ hlimit => ?_) fun _ _ h => h).bind ?_
    · exact Fault.IsLimit.only hlimit _
    · exact fun _ _ _ => yields_pure trivial

end Engine

/-- The key of a row that has the text of a supplied key as its id. The two can only
    be told apart in a column that takes every value as it is. -/
theorem TableSchema.Signs.key_cases {column : Column} {given v : Value} {row : Row}
    (h : schema.Signs v.toText row) (hp : schema.primaryKey = some column.name)
    (hcolumn : column ∈ schema.columns) (hregular : given.IsRegular)
    (hnull : given.isNull = false) (hcoerce : given.coerce column.typeName column.name = .ok v)
    (htext : v.hasText = true) :
    (Row.value row column.name).isNull = true ∨ (Row.value row column.name).equals v = true
      ∨ (Row.value row column.name).SpelledAlike v
        ∧ (ColumnType.ofName? column.typeName = none ∨ column.name = rowIdMember) := by
  rcases hkeyless : (Row.value row column.name).isNull with _ | _
  · have hv : v.IsRegular := Value.isRegular_of_coerce hregular hcoerce
    rcases Value.eq_or_spelledAlike (Row.isRegular_value h.regular column.name).scalar hv.scalar htext
      (h.keyed _ hp hkeyless) with hsame | halike
    · refine Or.inr (Or.inl ?_)
      rw [hsame]
      exact Value.equals_self hv.ordered
    · refine Or.inr (Or.inr ⟨halike, ?_⟩)
      by_cases hname : column.name = rowIdMember
      · exact Or.inr hname
      · rcases htype : ColumnType.ofName? column.typeName with _ | type
        · exact Or.inl rfl
        · -- Both keys are of the type of the column, so they cannot be written alike.
          have hheld := Value.holds_of_coerce htype (h.typed column hcolumn hname)
          have hgiven := Value.holds_of_coerce htype hcoerce
          exact absurd hgiven
            (halike.not_holds hkeyless (Value.isNull_of_coerce hnull hcoerce) hheld)
  · exact Or.inl rfl

namespace Executed

/-- The row that is in the way of a key has the text of the key as its id. If no
    text has assigned ids of the table, the row has no key, or it has a key that is
    equal to the one that was supplied, or one of the two is a text and the other is
    written like it. In a column of a checked type the last cannot be, unless the
    column takes the name that ids are kept under. -/
theorem duplicate_key_taken {s : Surroundings Memory} (h : Executed layout history s.store)
    (ht : history.tables table = some schema) {p : String} (hp : schema.primaryKey = some p)
    {sql : Option String} {columns : Option (List String)} {values : List Value}
    (hread : Statement.ofText sql = .ok (.insert table columns values)) {given : Value}
    (hgiven : (p, given) ∈ (columns.getD schema.names).zip values) (hnull : given.isNull = false)
    {useIndexes : Bool} {t id : String}
    (hcall : ((Engine.mk layout useIndexes).call sql s).1 = .error (.duplicateKey t id)) :
    t = table ∧ ∃ column ∈ schema.columns, column.name = p
      ∧ ∃ v, given.coerce column.typeName p = .ok v ∧ v.toText = id
        ∧ (∃ key data, layout.rowKey? table (Text.encode id) = .ok key
          ∧ lookupEntry key s.store.entries = some data)
        ∧ (history.keepsIds table = true → ∃ row, s.store.HoldsRow layout table id row
          ∧ ((Row.value row p).isNull = true ∨ (Row.value row p).equals v = true
            ∨ (Row.value row p).SpelledAlike v
              ∧ (ColumnType.ofName? column.typeName = none ∨ p = rowIdMember))) := by
  rcases h.reached.described with ⟨d, c, htables, hm, hd⟩
  rcases Statement.insert_of_ofText hread with ⟨hnodup, hdenoted⟩
  have hregular : given.IsRegular := (hdenoted given (List.of_mem_zip hgiven).2).isRegular
  have hshows : s.Shows ⟨c, s.ids, s.notes⟩ := ⟨hm, rfl, rfl⟩
  have hend := ((Engine.mk layout useIndexes).call_statement hread hshows).1
  rw [hcall] at hend
  have hdeclared : d.tables table = some schema := by
    rw [htables]
    exact ht
  have hyields := @Engine.insert_duplicate d ⟨c, s.ids, s.notes⟩ table schema ⟨layout, useIndexes⟩ hd
    hdeclared p hp columns values hnodup hdenoted given hgiven hnull
  rcases hyields.of_error (Prod.ext hend.symm rfl) t id rfl with
    ⟨rfl, column, hcolumn, rfl, v, hcoerce, hlimit, rfl, hfits, data, hget⟩
  have hkey : layout.rowKey? t (Text.encode v.toText)
      = .ok ((Slot.row t (Text.encode v.toText)).key layout) := KeyLayout.rowKey?_fits hfits
  have hlookup : lookupEntry ((Slot.row t (Text.encode v.toText)).key layout) s.store.entries
      = some data := by
    rw [hm]
    exact hget
  refine ⟨rfl, column, hcolumn, rfl, v, hcoerce, rfl, ⟨_, data, hkey, hlookup⟩, fun hkeeps => ?_⟩
  -- A statement has filed the row that is in the way, under the schema there is now.
  rcases h.signed hkeeps hkey hlookup with ⟨declared, hother, name, row, hid, hrow, hsigns⟩
  obtain rfl : declared = schema := Option.some.inj (hother.symm.trans ht)
  obtain rfl : v.toText = name := Text.encode_injective hid
  refine ⟨row, ⟨_, data, hkey, hlookup, hrow⟩, ?_⟩
  exact hsigns.key_cases hp hcolumn hregular hnull hcoerce hlimit

end Executed

/-- A table with one key. -/
def keyedRow : List (Option String) :=
  [some "CREATE TABLE t (p INTEGER PRIMARY KEY)", some "INSERT INTO t VALUES (2)"]

/-- The key is there when it is supplied again. -/
theorem duplicate_key_taken_keyedRow : ∃ v row, (Value.int 2).coerce "INTEGER" "p" = .ok v
    ∧ (freshRun keyedRow).2.store.HoldsRow defaultLayout "t" "2" row
    ∧ (Row.value row "p").equals v = true := by
  have hread : Statement.ofText (some "INSERT INTO t VALUES (2)") = .ok (.insert "t" none [.int 2]) := by
    decide +kernel
  have hrun : (freshHistory keyedRow).keepsIds "t" = true
      ∧ (freshHistory keyedRow).tables "t"
        = some ⟨"t", [⟨"p", "INTEGER", false, true, .null⟩], some "p"⟩
      ∧ ((Engine.mk defaultLayout true).call (some "INSERT INTO t VALUES (2)") (freshRun keyedRow).2).1
        = .error (.duplicateKey "t" "2")
      ∧ (freshRun keyedRow).2.store.HoldsRow defaultLayout "t" "2"
        [("p", .int 2), ("_id", .text "2")] := by
    decide +kernel
  rcases hrun with ⟨hkeeps, htable, hcall, hholds⟩
  have hgiven : ("p", Value.int 2) ∈ ["p"].zip [Value.int 2] := by decide
  rcases (executed_freshRun keyedRow).duplicate_key_taken htable rfl hread hgiven rfl hcall with
    ⟨-, column, hcolumn, -, v, hcoerce, -, -, htaken⟩
  obtain rfl := List.mem_singleton.mp hcolumn
  rcases htaken hkeeps with ⟨row, hrow, hkeyless | hequal | ⟨-, hunchecked⟩⟩
  · -- The row that is in the way has a key.
    rw [Memory.holdsRow_iff] at hholds hrow
    obtain rfl := Option.some.inj (hholds.symm.trans hrow)
    exact absurd hkeyless (by decide)
  · exact ⟨v, row, hcoerce, hrow, hequal⟩
  · exact absurd hunchecked (by decide)

/-- A row is filed under the first id that is drawn, and has no key. -/
def keylessRow : List (Option String) :=
  [some "CREATE TABLE t (p INTEGER PRIMARY KEY, a TEXT)", some "INSERT INTO t (a) VALUES ('x')"]

/-- A key is refused that no row has. -/
theorem key_refused_keylessRow :
    Executed defaultLayout (freshHistory keylessRow) (freshRun keylessRow).2.store
      ∧ (∃ schema, (freshHistory keylessRow).tables "t" = some schema ∧ schema.primaryKey = some "p"
        ∧ ("p", Value.int 1) ∈ schema.names.zip [.int 1, .text "y"])
      ∧ Statement.ofText (some "INSERT INTO t VALUES (1, 'y')")
        = .ok (.insert "t" none [.int 1, .text "y"])
      ∧ (Value.int 1).coerce "INTEGER" "p" = .ok (.int 1)
      ∧ ((Engine.mk defaultLayout true).call (some "INSERT INTO t VALUES (1, 'y')")
        (freshRun keylessRow).2).1 = .error (.duplicateKey "t" "1")
      ∧ ∀ id row, (freshRun keylessRow).2.store.HoldsRow defaultLayout "t" id row →
        (Row.value row "p").equals (.int 1) = false := by
  have hread : Statement.ofText (some "INSERT INTO t VALUES (1, 'y')")
      = .ok (.insert "t" none [.int 1, .text "y"]) := by decide +kernel
  have hrun : (freshHistory keylessRow).tables "t" = some ⟨"t",
        [⟨"p", "INTEGER", false, true, .null⟩, ⟨"a", "TEXT", true, false, .null⟩], some "p"⟩
      ∧ ((Engine.mk defaultLayout true).call (some "INSERT INTO t VALUES (1, 'y')")
        (freshRun keylessRow).2).1 = .error (.duplicateKey "t" "1")
      ∧ ∀ e ∈ (freshRun keylessRow).2.store.entries, (Row.ofBytes e.2).toOption.all
        (fun row => !(Row.value row "p").equals (.int 1)) = true := by
    decide +kernel
  rcases hrun with ⟨htable, hcall, hentries⟩
  refine ⟨executed_freshRun _, ⟨_, htable, rfl, by decide⟩, hread, rfl, hcall, ?_⟩
  rintro id row ⟨key, data, -, hget, hrow⟩
  have hother := hentries _ (mem_of_lookupEntry hget)
  rw [hrow] at hother
  simpa [Except.toOption] using hother

end TableStore
