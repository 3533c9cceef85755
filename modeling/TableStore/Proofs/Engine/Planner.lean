import TableStore.Proofs.Engine.Reached
import TableStore.Proofs.Engine.Twins

/-!
# Plans Do Not Matter

An engine that uses indexes and one that does not execute a query, a change or
a removal of rows with the same outcome, and leave the same store. The rows of
a result are in the same order, because an index lists the rows with one value
in the order of their ids, as a scan of the table does.

There is one exception. A condition whose operator orders nothing is only
noticed on a row that is looked at, and an index leaves rows out that another
condition rules out. So a full scan may fail with an unknown operator where a
plan with an index does not. As soon as the plan with an index fails in the same
way, or the full scan does not fail in this way, all is the same.

## Theorems

* `Reached.plans_agree_iff`: When two plans agree.
* `plans_disagree`: Two plans that do not.
-/

namespace TableStore

open Access

variable {layout : KeyLayout} {tables : Tables}

/-- A store next to itself. -/
theorem Description.Describes.twins {d : Description} {w : World} (hd : d.Describes layout w.store)
    (hindexed : d.Indexed layout w.store)
    (hkeeps : ∀ t schema, d.tables t = some schema → schema.KeepsIds) : Twins layout d d w w where
  describes := hd
  describes' := hd
  tables := rfl
  keepsIds := hkeeps
  indexed := hindexed
  indexed' := hindexed
  alike := World.Alike.refl layout w

/-- Twins with the same tables and the same indexes are the same. -/
theorem Twins.store_eq {d : Description} {w v : World} (h : Twins layout d d w v) :
    v.store = w.store :=
  h.describes'.eq_of_alike h.describes h.indexed' h.indexed h.alike

/-- When a text about rows has the same outcome with indexes and without them,
    and leaves the same store: it has to fail with the unknown operators with
    which the full scan fails. -/
theorem Reached.plans_agree_iff {s : Surroundings Memory} (h : Reached layout Orderly tables s.store)
    {sql : Option String} (hfinds : Statement.ReadAs Statement.FindsRows sql)
    (hon : WithinLimits ((Engine.mk layout true).call sql s).1)
    (hoff : WithinLimits ((Engine.mk layout false).call sql s).1) :
    (((Engine.mk layout true).call sql s).1
        = ((Engine.mk layout false).call sql s).1
      ∧ ((Engine.mk layout true).call sql s).2.store.entries
        = ((Engine.mk layout false).call sql s).2.store.entries)
    ↔ ∀ fault : Fault, fault.IsUnknownOperator →
        ((Engine.mk layout false).call sql s).1 = .error fault →
        ((Engine.mk layout true).call sql s).1 = .error fault := by
  rcases s with ⟨m, ids, notes⟩
  constructor
  · rintro ⟨hsame, -⟩ fault - hrun
    exact hsame.trans hrun
  · intro hmeets
    rcases h.indexed with ⟨d, c, rfl, hm, hd, hindexed, hkeeps⟩
    -- Both engines are run on the bare contents, as two runs of one store that
    -- is its own twin.
    rcases ((Engine.mk layout true).execute sql).run_contents hm ids notes with
      ⟨hout, hshows⟩
    rcases ((Engine.mk layout false).execute sql).run_contents hm ids notes with
      ⟨hout', hshows'⟩
    simp only [Engine.call, hout, hout', hshows.entries, hshows'.entries] at hmeets hon hoff ⊢
    have hexecute : ∀ {uses statement}, Statement.ofText sql = .ok statement →
        (Engine.mk layout uses).execute sql = (Engine.mk layout uses).executeStatement statement := by
      intro uses statement hread
      rw [Engine.execute, hread, lift_ok_bind]
    rcases hread : Statement.ofText sql with fault | statement
    · rw [Engine.execute, Engine.execute, hread]
      exact ⟨rfl, rfl⟩
    · rw [hexecute hread, hexecute hread] at hmeets ⊢
      rw [hexecute hread] at hon hoff
      have htwins := @Description.Describes.twins layout d ⟨c, ids, notes⟩ hd hindexed hkeeps
      rcases Engine.findsRows_twins_scan htwins (Statement.plain_of_ofText hread)
        (hfinds statement hread) hon hoff hmeets with ⟨hsame, hends⟩
      exact ⟨hsame, by rw [hends.store_eq]⟩

/-- A query for the only row of a table. -/
theorem plans_agree_indexedTable :
    ((Engine.mk defaultLayout true).call (some "SELECT * FROM t WHERE a = 1")
        (freshRun indexedTable).2).1
      = ((Engine.mk defaultLayout false).call (some "SELECT * FROM t WHERE a = 1")
        (freshRun indexedTable).2).1
    ∧ ((Engine.mk defaultLayout true).call (some "SELECT * FROM t WHERE a = 1")
        (freshRun indexedTable).2).2.store.entries
      = ((Engine.mk defaultLayout false).call (some "SELECT * FROM t WHERE a = 1")
        (freshRun indexedTable).2).2.store.entries := by
  have hruns : ((Engine.mk defaultLayout true).call (some "SELECT * FROM t WHERE a = 1")
        (freshRun indexedTable).2).1 = .ok ⟨[[("a", .int 1)]], [.string "a"], 0⟩
      ∧ ((Engine.mk defaultLayout false).call (some "SELECT * FROM t WHERE a = 1")
        (freshRun indexedTable).2).1 = .ok ⟨[[("a", .int 1)]], [.string "a"], 0⟩ := by
    decide +kernel
  refine (reached_indexedTable.plans_agree_iff (by decide +kernel) ?_ ?_).mpr fun fault _ h => ?_
  · exact fun fault h => absurd (hruns.1.symm.trans h) (by simp)
  · exact fun fault h => absurd (hruns.2.symm.trans h) (by simp)
  · exact absurd (hruns.2.symm.trans h) (by simp)

/-- Two plans that do not agree: no row is looked at for the value 2 in the
    index, so the operator is not noticed that orders nothing. It is spelled
    with the sign for kelvin, which matches the letter k in any case but has no
    other upper case than itself. -/
theorem plans_disagree : Reached defaultLayout Orderly
      (Tables.afterTexts (fun _ => none) indexedTable (freshRun indexedTable).1)
      (freshRun indexedTable).2.store
    ∧ ((Engine.mk defaultLayout true).call
        (some "SELECT * FROM t WHERE a = 2 AND a LI\u212AE 3") (freshRun indexedTable).2).1
      = .ok ⟨[], [.string "a"], 0⟩
    ∧ ((Engine.mk defaultLayout false).call
        (some "SELECT * FROM t WHERE a = 2 AND a LI\u212AE 3") (freshRun indexedTable).2).1
      = .error (.unknownOperator "LI\u212AE") :=
  ⟨reached_indexedTable, by decide +kernel⟩

end TableStore
