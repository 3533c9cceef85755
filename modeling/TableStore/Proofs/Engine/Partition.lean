import TableStore.Proofs.Engine.Query
import TableStore.Proofs.Engine.Trichotomy

/-!
# A Condition and Its Negation

A query for the rows that have a value in a column and one for the rows that
have another are executed in different ways. The first may go through an index
and look at a part of the rows only, and the second always looks at all of them.
They still split the rows of the table between them, as long as the index holds
what it should. An index that has lost the entry of a row hides the row from the
first query, and the second one passes it by because it has the value, so that
neither of them returns it.

The literal is brought into the form of the column first, and this does not
depend on the operator, so both queries ask for the same value.

## Main definitions

* `Engine.Unplaced`: A query that an index has no place for.

## Theorems

* `bindCondition_notEqual`: Both operators ask for one value.
* `isMatch_equal`, `isMatch_notEqual`: A row satisfies one of the two conditions.
* `comparisons_split_rows`: The operators go together, and queries by them split the rows.
-/

namespace TableStore

open Access

variable {d : Description} {layout : KeyLayout} {table column : String} {schema : TableSchema}
  {rows : List (String × Row)} {given : Value} {bound : Condition} {w : World}
  {s : Surroundings Memory}

/-- A query for the rows with a value fails at a limit, since an index that it goes through has no
    place for the value. -/
structure Engine.Unplaced (engine : Engine) (s : Surroundings Memory) (table column : String)
    (given asked : Value) : Prop where
  indexed : engine.useIndexes = true
  unplaced : ∃ index, s.store.Defines engine.layout table index column
    ∧ ¬engine.layout.Places table index asked
  fails : ∃ fault : Fault, fault.IsLimit ∧ ∀ query,
    Statement.ofText query = .ok (.select table [] [⟨column, .equal, given⟩] [] none none) →
    (engine.call query s).1 = .error fault

/-- Both operators ask for one value in the form of the column. -/
theorem bindCondition_notEqual {schema : StoredSchema}
    (h : bindCondition schema ⟨column, .equal, given⟩ = .ok bound) :
    bound = ⟨column, .equal, bound.value⟩
      ∧ bindCondition schema ⟨column, .notEqual, given⟩ = .ok ⟨column, .notEqual, bound.value⟩ := by
  rw [bindCondition] at h ⊢
  dsimp only at h ⊢
  rcases hcolumn : schema.column? column with _ | declared
  · rw [hcolumn] at h
    rw [← Except.ok.inj h]
    exact ⟨rfl, rfl⟩
  · rw [hcolumn] at h
    simp only [ComparisonOperator.isPattern, Bool.false_eq_true, if_false] at h ⊢
    rcases exists_of_bind_eq_ok h with ⟨v, hv, h⟩
    rw [hv, ok_bind, ← Except.ok.inj h]
    exact ⟨rfl, rfl⟩

/-- A condition that can be evaluated on every row. -/
theorem satisfies_single {row : Row} {condition : Condition} {holds : Bool}
    (h : condition.operator.holds (Row.value row condition.column) condition.value = .ok holds) :
    satisfies row [condition] = .ok holds := by
  rw [satisfies, h, ok_bind, satisfies, ok_bind, Bool.and_true]

theorem isMatch_single {condition : Condition} {p : String × Row} {holds : Bool}
    (h : condition.operator.holds (Row.value p.2 condition.column) condition.value = .ok holds) :
    isMatch [condition] p = holds := by
  rw [isMatch, satisfies_single h]
  cases holds <;> rfl

theorem isMatch_equal (column : String) (v : Value) (p : String × Row) :
    isMatch [⟨column, .equal, v⟩] p = (Row.value p.2 column).equals v :=
  isMatch_single rfl

theorem isMatch_notEqual (column : String) (v : Value) (p : String × Row) :
    isMatch [⟨column, .notEqual, v⟩] p = !(Row.value p.2 column).equals v :=
  isMatch_single rfl

theorem bindConditions_single {schema : StoredSchema} {condition other : Condition}
    (h : bindCondition schema condition = .ok other) :
    bindConditions schema [condition] = .ok [other] := by
  rw [bindConditions, List.mapM_cons, h]
  rfl

namespace Engine

variable {engine : Engine}

/-- A query fails where its rows cannot be found. -/
theorem looks_select_error (hd : d.Describes engine.layout w.store)
    (ht : d.tables table = some schema) {conditions found : List Condition} {fault : Fault}
    (hbound : bindConditions schema.stored conditions = .ok found)
    (hfound : (engine.findRows table found).Looks w (.error fault)) (items : List SelectItem)
    (order : List OrderItem) (limit offset : Option Nat) :
    (engine.select table items conditions order limit offset).Looks w (.error fault) := by
  refine (Catalog.looks_requireSchema hd ht).run_bind.trans ?_
  rw [hbound, lift_ok_bind, requireText_stored hd.wellFormed ht, lift_ok_bind]
  exact hfound.run_bind_error

/-- A condition of which no index is asked selects the rows that satisfy it. -/
theorem selects_unequal (hd : d.Describes engine.layout w.store)
    (ht : d.tables table = some schema) (hids : schema.KeepsIds)
    (hindexed : engine.useIndexes = true → d.IndexedIn engine.layout w.store table)
    (hrows : w.store.HoldsRows engine.layout table schema rows) (hs : s.Shows w)
    (hbound : bindCondition schema.stored ⟨column, .equal, given⟩ = .ok bound) :
    engine.Selects s table schema [⟨column, .notEqual, given⟩]
      (rows.filter fun p => !(Row.value p.2 column).equals bound.value) rows := by
  have hconditions := bindConditions_single (bindCondition_notEqual hbound).2
  have hselects := selects hd ht hids hrows hconditions
    (looks_filter hd (hd.wellFormed.schema_fits table schema ht) hindexed hrows
      (fun p _ => ⟨_, satisfies_single rfl⟩) ?_) hs
  · rwa [List.filter_congr fun p _ => isMatch_notEqual column bound.value p] at hselects
  · intro _ condition hcondition hequal
    rw [List.mem_singleton.mp hcondition] at hequal
    exact absurd hequal (by simp)

/-- A query for a value selects the rows that have it, unless an index has no place for the
    value. -/
theorem selects_equal (hd : d.Describes engine.layout w.store)
    (ht : d.tables table = some schema) (hids : schema.KeepsIds)
    (hindexed : engine.useIndexes = true → d.IndexedIn engine.layout w.store table)
    (hrows : w.store.HoldsRows engine.layout table schema rows) (hs : s.Shows w)
    (hbound : bindCondition schema.stored ⟨column, .equal, given⟩ = .ok bound) :
    engine.Selects s table schema [⟨column, .equal, given⟩]
        (rows.filter fun p => (Row.value p.2 column).equals bound.value) rows
      ∨ engine.Unplaced s table column given bound.value := by
  have hname := hd.wellFormed.schema_fits table schema ht
  have hasked := (bindCondition_notEqual hbound).1
  rw [hasked] at hbound
  have hconditions := bindConditions_single hbound
  have hmatches : ∀ p ∈ rows, ∃ matched, satisfies p.2 [⟨column, .equal, bound.value⟩] = .ok matched :=
    fun p _ => ⟨_, satisfies_single rfl⟩
  have hselects : (engine.findRows table [⟨column, .equal, bound.value⟩]).Looks w
      (.ok ((rows.filter (isMatch [⟨column, .equal, bound.value⟩])).map asFound)) →
      engine.Selects s table schema [⟨column, .equal, given⟩]
        (rows.filter fun p => (Row.value p.2 column).equals bound.value) rows := by
    intro hfound
    have hselects := selects hd ht hids hrows hconditions hfound hs
    rwa [List.filter_congr fun p _ => isMatch_equal column bound.value p] at hselects
  -- Where each index of the column has a place for the value, the search cannot fail.
  by_cases hplaced : engine.useIndexes = true → ∀ index,
      s.store.Defines engine.layout table index column →
      engine.layout.Places table index bound.value
  · refine Or.inl (hselects (looks_filter hd hname hindexed hrows hmatches ?_))
    intro huse condition hcondition _ index hcovers
    rw [List.mem_singleton.mp hcondition] at hcovers ⊢
    exact hplaced huse index (hd.defines hs.entries hcovers)
  · simp only [Classical.not_imp, not_forall] at hplaced
    rcases hplaced with ⟨huse, index, hdefines, hunplaced⟩
    rcases exists_found hd ht hindexed hrows [⟨column, .equal, bound.value⟩] with
      ⟨r, hlooks, hfinds⟩
    rcases exists_matchesOf hmatches with ⟨found, hfound⟩
    -- What is found is what a full scan finds, unless the search fails at a limit.
    rcases hfinds.of_all (congrArg (Except.map (List.map asFound)) hfound) with
      ⟨fault, rfl, hlimit⟩ | rfl
    · refine Or.inr ⟨huse, ⟨index, hdefines, hunplaced⟩, fault, hlimit, fun query hquery => ?_⟩
      rw [(engine.call_statement hquery hs).1]
      exact congrArg Prod.fst (looks_select_error hd ht hconditions hlooks [] [] none none)
    · rw [eq_filter_of_matchesOf hfound] at hlooks
      exact Or.inl (hselects hlooks)

/-- A query without conditions selects all rows. -/
theorem selects_all (hd : d.Describes engine.layout w.store)
    (ht : d.tables table = some schema) (hids : schema.KeepsIds)
    (hindexed : engine.useIndexes = true → d.IndexedIn engine.layout w.store table)
    (hrows : w.store.HoldsRows engine.layout table schema rows) (hs : s.Shows w) :
    engine.Selects s table schema [] rows rows := by
  have hconditions : bindConditions schema.stored [] = .ok [] := rfl
  have hselects := selects hd ht hids hrows hconditions
    (looks_filter hd (hd.wellFormed.schema_fits table schema ht) hindexed hrows
      (fun p _ => ⟨true, rfl⟩) fun _ _ hmem => absurd hmem List.not_mem_nil) hs
  have hall : rows.filter (isMatch []) = rows := List.filter_eq_self.mpr fun _ _ => rfl
  rwa [hall] at hselects

end Engine

/-- The operators go together for any two values, numbers are compared as what they are, and the
    queries for the rows with a value and for the rows without it split the rows of a table, if the
    indexes that are used hold what they should. -/
theorem comparisons_split_rows (engine : Engine) :
    (∀ v literal : Value, v.IsRegular → literal.IsRegular → v.Compared literal)
    ∧ (∀ a b x y, Value.number? a = some x → Value.number? b = some y →
      (ComparisonOperator.less.Holds a b ↔ x < y) ∧ (ComparisonOperator.equal.Holds a b ↔ x = y)
        ∧ (ComparisonOperator.greater.Holds a b ↔ y < x))
    ∧ (∀ a b c x y z, Value.number? a = some x → Value.number? b = some y →
      Value.number? c = some z → ComparisonOperator.less.Holds a b →
      ComparisonOperator.less.Holds b c → ComparisonOperator.less.Holds a c)
    ∧ ∀ {allows : Tables → Except Fault QueryResult → Prop} {tables : Tables}
      {s : Surroundings Memory} {table column : String} {schema : TableSchema} {given : Value}
      {bound : Condition},
      Reached engine.layout allows tables s.store →
      tables table = some schema → schema.KeepsIds →
      (engine.useIndexes = true →
        ∀ index covered, s.store.Defines engine.layout table index covered →
          s.store.Lists engine.layout table index covered) →
      bindCondition schema.stored ⟨column, .equal, given⟩ = .ok bound →
      ∃ rows, engine.Selects s table schema [] rows rows
        ∧ engine.Selects s table schema [⟨column, .notEqual, given⟩]
          (rows.filter fun p => !(Row.value p.2 column).equals bound.value) rows
        ∧ (engine.Selects s table schema [⟨column, .equal, given⟩]
            (rows.filter fun p => (Row.value p.2 column).equals bound.value) rows
          ∨ engine.Unplaced s table column given bound.value) := by
  refine ⟨fun v literal hv hliteral => Value.compared hv hliteral,
    fun a b x y ha hb => Value.holds_numbers ha hb, ?_, ?_⟩
  · intro a b c x y z ha hb hc hab hbc
    rw [(Value.holds_numbers ha hb).1] at hab
    rw [(Value.holds_numbers hb hc).1] at hbc
    exact (Value.holds_numbers ha hc).1.mpr (hab.trans hbc)
  · intro allows tables s table column schema given bound h ht hids hagree hbound
    rcases s with ⟨m, ids, notes⟩
    rcases h.described with ⟨d, c, rfl, hm, hd⟩
    have hs : Surroundings.Shows ⟨m, ids, notes⟩ ⟨c, ids, notes⟩ := ⟨hm, rfl, rfl⟩
    have hindexed : engine.useIndexes = true → d.IndexedIn engine.layout c table :=
      fun huse => hd.indexedIn hm ht hids (hagree huse)
    rcases exists_rows (w := ⟨c, ids, notes⟩) hd ht hids with ⟨rows, hrows⟩
    have hall : engine.Selects ⟨m, ids, notes⟩ table schema [] rows rows :=
      Engine.selects_all hd ht hids hindexed hrows hs
    exact ⟨rows, hall, Engine.selects_unequal hd ht hids hindexed hrows hs hbound,
      Engine.selects_equal hd ht hids hindexed hrows hs hbound⟩

/-- A table with an index and with a row that is not in it. -/
def floatTable : List (Option String) :=
  [some "CREATE TABLE t (a FLOAT)", some "CREATE INDEX i ON t(a)", some "INSERT INTO t VALUES (1)",
    some "INSERT INTO t VALUES (NULL)", some "INSERT INTO t VALUES (2.5)"]

/-- An integer is looked for among floats and null. -/
theorem comparisons_split_rows_floatTable :
    Value.Compared (.float (.infinite true)) (.int 0)
    ∧ ComparisonOperator.less.Holds (.float (.infinite true)) (.float (.infinite false))
    ∧ ∃ schema bound rows, bindCondition schema.stored ⟨"a", .equal, .int 1⟩ = .ok bound
      ∧ (Engine.mk defaultLayout true).Selects (freshRun floatTable).2 "t" schema [] rows rows
      ∧ (Engine.mk defaultLayout true).Selects (freshRun floatTable).2 "t" schema
        [⟨"a", .notEqual, .int 1⟩] (rows.filter fun p => !(Row.value p.2 "a").equals bound.value) rows
      ∧ ((Engine.mk defaultLayout true).Selects (freshRun floatTable).2 "t" schema
          [⟨"a", .equal, .int 1⟩] (rows.filter fun p => (Row.value p.2 "a").equals bound.value) rows
        ∨ (Engine.mk defaultLayout true).Unplaced (freshRun floatTable).2 "t" "a" (.int 1)
          bound.value) := by
  have hlimits : (∀ sql ∈ floatTable, leavesIds sql = true)
      ∧ (∀ r ∈ (freshRun floatTable).1, WithinLimits r)
      ∧ Tables.afterTexts (fun _ => none) floatTable (freshRun floatTable).1 "t"
        = some ⟨"t", [⟨"a", "FLOAT", true, false, .null⟩], none⟩ := by
    decide +kernel
  rcases hlimits with ⟨hleaves, hwithin, ht⟩
  have hreached := reached_freshRun hleaves hwithin
  rcases hreached.indexed with ⟨d, -, htables, -, -, -, hkeeps⟩
  rcases comparisons_split_rows ⟨defaultLayout, true⟩ with
    ⟨hcompared, hnumbers, htransitive, hsplit⟩
  refine ⟨hcompared _ _ ⟨trivial, rfl⟩ ⟨trivial, rfl⟩, ?_, ?_⟩
  · refine htransitive _ (.int 0) _ ⊥ ((0 : ℚ) : WithTop ℚ) ⊤ rfl (by simp [Value.number?]) rfl ?_ ?_
    · rw [(hnumbers _ _ ⊥ ((0 : ℚ) : WithTop ℚ) rfl (by simp [Value.number?])).1]
      exact WithBot.bot_lt_coe _
    · rw [(hnumbers _ _ ((0 : ℚ) : WithTop ℚ) ⊤ (by simp [Value.number?]) rfl).1]
      exact WithBot.coe_lt_coe.mpr (WithTop.coe_lt_top 0)
  · have hbound : bindCondition (TableSchema.stored ⟨"t", [⟨"a", "FLOAT", true, false, .null⟩], none⟩)
        ⟨"a", .equal, .int 1⟩ = .ok ⟨"a", .equal, .float (.finite false 0x3FF0000000000000)⟩ := by
      decide +kernel
    rcases hsplit hreached ht (hkeeps "t" _ (htables ▸ ht))
      (fun _ _ _ hdefines => hreached.lists hdefines) hbound with ⟨rows, hall, hunequal, hequal⟩
    exact ⟨_, _, rows, hbound, hall, hunequal, hequal⟩

end TableStore
