import TableStore.Proofs.Engine.Reached
import TableStore.Proofs.Engine.Twins

/-!
# Filling an Index Late

An index that is created before some texts about rows are executed is kept up
to date by each of them. If it is created after them instead, its entries come
from the rows that are there by then. Both ways lead to the very same store, and
the texts have the same outcomes, although the new index changes how they find
their rows.

The two runs are compared text by text. The store of the one has the index and
that of the other does not, and apart from this they are twins. In the end the
index is created in the second one as well, and then nothing is left that could
tell them apart: what an index holds is determined by the rows.

The exception is the one that plans have. A text may meet an unknown operator in
one of the runs and not in the other, and may then change rows in one of them
only.

## Main definitions

* `IndexedRun`: The outcomes of a run in which an index is created.
* `Engine.createFirst`, `Engine.createLast`: The two runs.

## Theorems

* `Engine.calls_twins`: Texts about rows keep stores twins.
* `Reached.backfill_agrees_iff`: When the two runs agree.
-/

namespace TableStore

open Access

variable {layout : KeyLayout} {d d' : Description} {w v : World} {uses : Bool} {tables : Tables}

/-- The outcome of creating an index, those of other texts, and what they
    leave. -/
structure IndexedRun where
  created : Except Fault QueryResult
  outcomes : List (Except Fault QueryResult)
  after : Surroundings Memory

/-- A run that hits no limit. -/
structure IndexedRun.Unlimited (run : IndexedRun) : Prop where
  created : WithinLimits run.created
  outcomes : ∀ r ∈ run.outcomes, WithinLimits r

instance (run : IndexedRun) : Decidable run.Unlimited :=
  decidable_of_iff (WithinLimits run.created ∧ ∀ r ∈ run.outcomes, WithinLimits r)
    ⟨fun h => ⟨h.1, h.2⟩, fun h => ⟨h.created, h.outcomes⟩⟩

/-- Creates an index and executes texts after that. -/
def Engine.createFirst (engine : Engine) (create : Option String) (texts : List (Option String))
    (s : Surroundings Memory) : IndexedRun :=
  let (created, s) := engine.call create s
  let (outcomes, s) := engine.calls texts s
  ⟨created, outcomes, s⟩

/-- Executes texts and creates an index after that. -/
def Engine.createLast (engine : Engine) (create : Option String) (texts : List (Option String))
    (s : Surroundings Memory) : IndexedRun :=
  let (outcomes, s) := engine.calls texts s
  let (created, s) := engine.call create s
  ⟨created, outcomes, s⟩

namespace Engine

/-- A text about rows ends in the same way in twins. -/
theorem execute_twins (h : Twins layout d d' w v) {sql : Option String}
    (hsql : Statement.ReadAs Statement.Manipulates sql)
    (hids : w.ids.Counts) (hlimit : WithinLimits (((Engine.mk layout uses).execute sql).on w).1)
    (hlimit' : WithinLimits (((Engine.mk layout uses).execute sql).on v).1)
    (hsame : MeetSame (((Engine.mk layout uses).execute sql).on w).1
      (((Engine.mk layout uses).execute sql).on v).1) :
    EndsAlike layout d d' ((Engine.mk layout uses).execute sql)
      ((Engine.mk layout uses).execute sql) w v := by
  rcases hread : Statement.ofText sql with fault | statement
  · rw [execute, hread]
    exact ⟨rfl, h⟩
  · rw [execute, hread, lift_ok_bind] at hlimit hlimit' hsame ⊢
    exact executeStatement_twins h (Statement.plain_of_ofText hread) (hsql statement hread) hids
      hlimit hlimit' hsame

/-- Texts about rows keep stores twins, and have the same outcomes in both. -/
theorem calls_twins {texts : List (Option String)} {s s' : Surroundings Memory}
    (h : Twins layout d d' w v) (hs : s.Shows w) (hs' : s'.Shows v) (hids : w.ids.Counts)
    (htexts : ∀ sql ∈ texts, Statement.ReadAs Statement.Manipulates sql)
    (hlimit : ∀ r ∈ ((Engine.mk layout uses).calls texts s).1, WithinLimits r)
    (hlimit' : ∀ r ∈ ((Engine.mk layout uses).calls texts s').1, WithinLimits r)
    (hsame : ∀ p ∈ ((Engine.mk layout uses).calls texts s).1.zip
      ((Engine.mk layout uses).calls texts s').1, MeetSame p.1 p.2) :
    ((Engine.mk layout uses).calls texts s).1 = ((Engine.mk layout uses).calls texts s').1
      ∧ ∃ w' v', ((Engine.mk layout uses).calls texts s).2.Shows w'
        ∧ ((Engine.mk layout uses).calls texts s').2.Shows v' ∧ Twins layout d d' w' v' := by
  induction texts generalizing s s' w v with
  | nil => exact ⟨rfl, w, v, hs, hs', h⟩
  | cons sql texts ih =>
    rcases ((Engine.mk layout uses).execute sql).run_memory hs with ⟨hout, hshows⟩
    rcases ((Engine.mk layout uses).execute sql).run_memory hs' with ⟨hout', hshows'⟩
    -- What is said of all outcomes is said of the first and of the rest.
    have hhead := hlimit _ List.mem_cons_self
    have hhead' := hlimit' _ List.mem_cons_self
    have hmeet := hsame _ List.mem_cons_self
    dsimp only [call] at hhead hhead' hmeet
    rw [hout] at hhead hmeet
    rw [hout'] at hhead' hmeet
    rcases execute_twins h (htexts sql List.mem_cons_self) hids hhead hhead' hmeet with
      ⟨hsame₁, htwins⟩
    rcases ih htwins hshows hshows' (counts_run _ hids)
      (fun other hother => htexts other (List.mem_cons_of_mem _ hother))
      (fun r hr => hlimit r (List.mem_cons_of_mem _ hr))
      (fun r hr => hlimit' r (List.mem_cons_of_mem _ hr))
      (fun p hp => hsame p (List.mem_cons_of_mem _ hp)) with ⟨houts, hends⟩
    refine ⟨?_, hends⟩
    dsimp only [calls, call]
    rw [hout, hout', hsame₁]
    exact congrArg _ houts

/-- What the creation of an index that is not there leaves, if it hits no
    limit. -/
theorem execute_creates (hw : d.Describes layout w.store) (hindexed : d.Indexed layout w.store)
    {create : Option String} {index table column : String} {ifNotExists : Bool}
    (hcreate : Statement.ofText create = .ok (.createIndex index table column ifNotExists))
    {schema : TableSchema} (ht : d.tables table = some schema) (hkeeps : schema.KeepsIds)
    (hcolumn : column ∈ schema.names) (hnone : d.covers table index = none)
    (hlimit : WithinLimits (((Engine.mk layout uses).execute create).on w).1) :
    (d.cover table index column).Describes layout
        (((Engine.mk layout uses).execute create).on w).2.store
      ∧ (d.cover table index column).Indexed layout
        (((Engine.mk layout uses).execute create).on w).2.store
      ∧ w.Alike layout (((Engine.mk layout uses).execute create).on w).2 := by
  rw [execute, hcreate, lift_ok_bind] at hlimit ⊢
  exact createIndex_ends hw hindexed ht hkeeps hcolumn hnone rfl hlimit

end Engine

/-- When the creation of an index and texts about rows can change places: they
    have to meet the same unknown operators. -/
theorem Reached.backfill_agrees_iff {s : Surroundings Memory}
    (h : Reached layout Orderly tables s.store) {create : Option String}
    {index table column : String} {ifNotExists : Bool}
    (hcreate : Statement.ofText create = .ok (.createIndex index table column ifNotExists))
    {schema : TableSchema} (ht : tables table = some schema) (hcolumn : column ∈ schema.names)
    (hnew : ∀ key, layout.indexMetaKey? table index = .ok key →
      lookupEntry key s.store.entries = none)
    {texts : List (Option String)}
    (htexts : ∀ sql ∈ texts, Statement.ReadAs Statement.Manipulates sql) (hids : s.ids.Counts)
    (useIndexes : Bool)
    (hfirst : ((Engine.mk layout useIndexes).createFirst create texts s).Unlimited)
    (hlast : ((Engine.mk layout useIndexes).createLast create texts s).Unlimited) :
    (((Engine.mk layout useIndexes).createFirst create texts s).outcomes
        = ((Engine.mk layout useIndexes).createLast create texts s).outcomes
      ∧ ((Engine.mk layout useIndexes).createFirst create texts s).after.store.entries
        = ((Engine.mk layout useIndexes).createLast create texts s).after.store.entries)
    ↔ ∀ p ∈ ((Engine.mk layout useIndexes).createFirst create texts s).outcomes.zip
        ((Engine.mk layout useIndexes).createLast create texts s).outcomes, MeetSame p.1 p.2 := by
  rcases s with ⟨m, ids, notes⟩
  constructor
  · rintro ⟨hsame, -⟩ p hp
    rw [hsame] at hp
    rcases List.mem_iff_getElem.mp hp with ⟨n, hn, rfl⟩
    rw [List.getElem_zip]
    exact fun _ _ => Iff.rfl
  · intro hmeet
    rcases h.indexed with ⟨d, c, rfl, hm, hd, hindexed, hkeeps⟩
    have hnone : d.covers table index = none := by
      rcases hcovers : d.covers table index with _ | covered
      · rfl
      · have hfits := hd.wellFormed.definition_slot_fits hcovers
        have hget := hd.definition_stored table index covered hcovers
        have hfree := hnew _ (KeyLayout.indexMetaKey?_fits hfits)
        rw [hm] at hfree
        rw [Contents.get?, hfree] at hget
        exact absurd hget (by simp)
    -- The first run: once the index is there, the stores are twins.
    rcases ((Engine.mk layout useIndexes).execute create).run_contents hm ids notes with
      ⟨hout, hshows⟩
    have hcreated := hfirst.created
    dsimp only [Engine.createFirst, Engine.call] at hcreated
    rw [hout] at hcreated
    rcases Engine.execute_creates (w := ⟨c, ids, notes⟩) hd hindexed hcreate ht (hkeeps table schema ht)
      hcolumn hnone hcreated with ⟨hd₁, hindexed₁, halike₁⟩
    have htwins : Twins layout (d.cover table index column) d
        (((Engine.mk layout useIndexes).execute create).on ⟨c, ids, notes⟩).2 ⟨c, ids, notes⟩ :=
      ⟨hd₁, hd, rfl, hkeeps, hindexed₁, hindexed, halike₁⟩
    rcases Engine.calls_twins htwins hshows ⟨hm, rfl, rfl⟩ (counts_run _ hids) htexts hfirst.outcomes
      hlast.outcomes hmeet with ⟨houts, w, v, hw, hv, hends⟩
    refine ⟨houts, ?_⟩
    -- The second run: the index is created in the twin that lacks it.
    rcases ((Engine.mk layout useIndexes).execute create).run_memory hv with ⟨hout', hshows'⟩
    have hcreated' := hlast.created
    dsimp only [Engine.createLast, Engine.call] at hcreated'
    rw [hout'] at hcreated'
    rcases Engine.execute_creates hends.describes' hends.indexed' hcreate ht (hkeeps table schema ht)
      hcolumn hnone hcreated' with ⟨hd₂, hindexed₂, halike₂⟩
    have hsame := hd₂.eq_of_alike hends.describes hindexed₂ hends.indexed
      (halike₂.symm.trans hends.alike)
    dsimp only [Engine.createFirst, Engine.createLast, Engine.call]
    exact hw.entries.trans ((congrArg Contents.entries hsame).symm.trans hshows'.entries.symm)

/-- A table with one row and no index. -/
def plainTable : List (Option String) :=
  [some "CREATE TABLE t (a INTEGER)", some "INSERT INTO t VALUES (1)"]

theorem reached_plainTable : Reached defaultLayout Orderly
    (Tables.afterTexts (fun _ => none) plainTable (freshRun plainTable).1)
    (freshRun plainTable).2.store :=
  reached_freshRun (by decide +kernel) (by decide +kernel)

/-- A change of the row and a new one. -/
def plainChanges : List (Option String) :=
  [some "UPDATE t SET a = 2 WHERE a = 1", some "INSERT INTO t VALUES (3)"]

/-- The table is changed before or after it has an index. -/
theorem backfill_agrees_plainTable :
    ((Engine.mk defaultLayout true).createFirst (some "CREATE INDEX i ON t(a)") plainChanges
        (freshRun plainTable).2).outcomes
      = ((Engine.mk defaultLayout true).createLast (some "CREATE INDEX i ON t(a)") plainChanges
        (freshRun plainTable).2).outcomes
    ∧ ((Engine.mk defaultLayout true).createFirst (some "CREATE INDEX i ON t(a)") plainChanges
        (freshRun plainTable).2).after.store.entries
      = ((Engine.mk defaultLayout true).createLast (some "CREATE INDEX i ON t(a)") plainChanges
        (freshRun plainTable).2).after.store.entries := by
  have hcreate : Statement.ofText (some "CREATE INDEX i ON t(a)")
      = .ok (.createIndex "i" "t" "a" false) := by decide +kernel
  have htable : Tables.afterTexts (fun _ => none) plainTable (freshRun plainTable).1 "t"
      = some ⟨"t", [⟨"a", "INTEGER", true, false, .null⟩], none⟩ := by decide +kernel
  have hruns : ((Engine.mk defaultLayout true).createFirst (some "CREATE INDEX i ON t(a)")
        plainChanges (freshRun plainTable).2).Unlimited
      ∧ ((Engine.mk defaultLayout true).createLast (some "CREATE INDEX i ON t(a)") plainChanges
        (freshRun plainTable).2).Unlimited
      ∧ ∀ p ∈ ((Engine.mk defaultLayout true).createFirst (some "CREATE INDEX i ON t(a)")
        plainChanges (freshRun plainTable).2).outcomes.zip ((Engine.mk defaultLayout true).createLast
        (some "CREATE INDEX i ON t(a)") plainChanges (freshRun plainTable).2).outcomes,
        p.1 = p.2 := by
    decide +kernel
  refine (reached_plainTable.backfill_agrees_iff hcreate htable (by decide) (fun key hkey => ?_)
    (by decide +kernel) (by decide +kernel) true hruns.1 hruns.2.1).mpr fun p hp =>
      .of_eq (hruns.2.2 p hp)
  rw [(KeyLayout.indexMetaKey?_ok hkey).1]
  decide +kernel

/-- The two runs do not agree if a text meets an unknown operator in one of
    them. The new index rules the only row out before the operator is
    noticed. -/
theorem backfill_disagrees : Reached defaultLayout Orderly
      (Tables.afterTexts (fun _ => none) plainTable (freshRun plainTable).1)
      (freshRun plainTable).2.store
    ∧ ((Engine.mk defaultLayout true).createFirst (some "CREATE INDEX i ON t(a)")
        [some "SELECT * FROM t WHERE a = 2 AND a LI\u212AE 3"] (freshRun plainTable).2).outcomes
      = [.ok ⟨[], [.string "a"], 0⟩]
    ∧ ((Engine.mk defaultLayout true).createLast (some "CREATE INDEX i ON t(a)")
        [some "SELECT * FROM t WHERE a = 2 AND a LI\u212AE 3"] (freshRun plainTable).2).outcomes
      = [.error (.unknownOperator "LI\u212AE")] :=
  ⟨reached_plainTable, by decide +kernel⟩

end TableStore
