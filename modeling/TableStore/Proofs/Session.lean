import TableStore.Proofs.Store.Adapter
import TableStore.Session

/-!
# Sessions over Different Stores

A session reaches its store through dialogues only, so what is known of stores
that answer alike holds of sessions over them: the same statements in the same
databases have the same outcomes, and leave the same log, the same ids to draw
from and related stores.

For a database that keeps what it is given this says that nobody can tell it
from the sorted store, neither by calls nor by statements.

## Main definitions

* `Session.executeAll`: Executing statements one after the other.
* `Session.Alike`: Sessions that differ in related stores only.

## Theorems

* `Session.Alike.execute`, `Session.Alike.executeAll`: Statements in such
  sessions.
* `Database.Keeps.as_sorted`: An adapted database beside the sorted store.
-/

namespace TableStore

variable {σ τ α : Type}

namespace Session

/-- The outcomes of executing statements one after the other, each in a
    database, and the session after them. -/
def executeAll : Session σ → List (String × Option String) →
    List (Except Fault QueryResult) × Session σ
  | session, [] => ([], session)
  | session, (name, sql) :: rest =>
    let (r, session) := session.execute name sql
    let (others, session) := session.executeAll rest
    (r :: others, session)

/-- Sessions that are the same but for their stores, which answer alike and are
    in related states. -/
structure Alike (R : σ → τ → Prop) (a : Session σ) (b : Session τ) : Prop where
  answers : a.backend.AnswersAs b.backend R
  store : R a.store b.store
  connections : a.connections = b.connections
  keepsLines : a.keepsLines = b.keepsLines
  log : a.log = b.log
  last : a.last = b.last

namespace Alike

variable {R : σ → τ → Prop} {a : Session σ} {b : Session τ}

/-- A dialogue in alike sessions, with stores that answer alike. -/
theorem converse (h : a.Alike R b) {x : Backend σ} {y : Backend τ} (hxy : x.AnswersAs y R)
    (name : String) (connection : Connection) (dialogue : Access α) :
    SameAnswer (Alike R) (a.converse name connection x dialogue)
      (b.converse name connection y dialogue) := by
  have hstart : (Surroundings.mk a.store connection.ids []).Alike R ⟨b.store, connection.ids, []⟩ :=
    ⟨h.store, rfl, rfl⟩
  have hrun := hxy.run dialogue hstart
  refine ⟨hrun.outcome, h.answers, hrun.state.store, ?_, h.keepsLines, ?_, h.last⟩
  · simp only [Session.converse, h.connections, hrun.state.ids]
  · simp only [Session.converse, h.log, h.keepsLines, hrun.state.notes]

theorem perform (h : a.Alike R b) (name : String) (dialogue : Engine → Access α) :
    SameAnswer (Alike R) (a.perform name dialogue) (b.perform name dialogue) := by
  rw [Session.perform, Session.perform, h.connections]
  rcases Members.get? b.connections name with _ | connection
  · exact ⟨rfl, h⟩
  · refine h.converse ?_ name connection (dialogue connection.engine)
    -- Without a layout neither session can build a key.
    split
    · exact h.answers
    · exact h.answers.keyless

/-- A statement in alike sessions. -/
theorem execute (h : a.Alike R b) (name : String) (sql : Option String) :
    SameAnswer (Alike R) (a.execute name sql) (b.execute name sql) := by
  rw [Session.execute, Session.execute]
  refine (h.perform name fun engine => engine.execute sql).elim (fun result a' b' h' => ?_)
    fun fault a' b' h' => ?_
  · exact ⟨rfl, h'.answers, h'.store, h'.connections, h'.keepsLines, h'.log, rfl⟩
  · exact ⟨rfl, h'.answers, h'.store, h'.connections, h'.keepsLines, h'.log, rfl⟩

/-- Statements one after the other in alike sessions. -/
theorem executeAll (h : a.Alike R b) (texts : List (String × Option String)) :
    (a.executeAll texts).1 = (b.executeAll texts).1
      ∧ (a.executeAll texts).2.Alike R (b.executeAll texts).2 := by
  induction texts generalizing a b with
  | nil => exact ⟨rfl, h⟩
  | cons text texts ih =>
    rcases text with ⟨name, sql⟩
    have hfirst := h.execute name sql
    rcases ih hfirst.state with ⟨houtcomes, hstate⟩
    exact ⟨congrArg₂ List.cons hfirst.outcome houtcomes, hstate⟩

end Alike

end Session

namespace Database.Keeps

variable {db : Database σ} {holds : σ → (Bytes → Option Bytes) → Prop}

/-- A state of a database beside a sorted store that shows the same contents. -/
def Beside (holds : σ → (Bytes → Option Bytes) → Prop) (s : σ) (t : SortedStore) : Prop :=
  Relation.Comp (fun s (c : Contents) => holds s c.get?) (fun c t => t.Shows c) s t

theorem answersAs_sorted (h : db.Keeps holds) :
    (adapt db).AnswersAs sortedBackend (Beside holds) :=
  h.answersAs.trans SortedStore.answersAs_contents.symm

theorem beside_ofList {s : σ} {data : List Entry}
    (hs : holds s fun key => ((SortedStore.ofList data).get key).1) :
    Beside holds s (SortedStore.ofList data) := by
  have hshows := SortedStore.shows_ofList data
  refine ⟨_, ?_, hshows⟩
  have hsame : (fun key => ((SortedStore.ofList data).get key).1)
      = (StoreCall.leaveAll (StoreCall.puts data) .empty).get? := by
    funext key
    exact hshows.lookup key
  change holds s (StoreCall.leaveAll (StoreCall.puts data) .empty).get?
  rw [← hsame]
  exact hs

/-- A key has the same value in a database as in the sorted store beside it. -/
theorem get_eq_of_beside (h : db.Keeps holds) {s : σ} {t : SortedStore} (hst : Beside holds s t)
    (key : Bytes) : db.get key s = (t.get key).1 :=
  Except.ok.inj (h.answersAs_sorted.get hst key).outcome

/-- A database that keeps what it is given, adapted, beside the sorted store,
    both starting with the same values. Every run of calls succeeds on both with
    the same answers. Statements in databases of a session have the same
    outcomes over both, and leave the same databases, log and last result. In
    the end each key has the same value, and a scan of everything shows the
    same. -/
theorem as_sorted (h : db.Keeps holds) {s : σ} {data : List Entry}
    (hs : holds s fun key => ((SortedStore.ofList data).get key).1) :
    (∀ (calls : List StoreCall) (ids : IdSource) (notes : List String), ∃ answers s' t,
      (Access.mapList StoreCall.ask calls).run (adapt db) ⟨s, ids, notes⟩
          = (.ok answers, ⟨s', ids, notes⟩)
        ∧ (Access.mapList StoreCall.ask calls).run sortedBackend ⟨.ofList data, ids, notes⟩
          = (.ok answers, ⟨t, ids, notes⟩)
        ∧ ∀ key, db.get key s' = (t.get key).1)
    ∧ ∀ (connections : Members Connection) (keepsLines : Bool) (log : List String)
        (last : QueryResult) (texts : List (String × Option String)), ∃ outcomes s' t,
      (Session.mk (adapt db) s connections keepsLines log last).executeAll texts
          = (outcomes, s')
        ∧ (Session.mk sortedBackend (.ofList data) connections keepsLines log last).executeAll texts
          = (outcomes, t)
        ∧ s'.connections = t.connections ∧ s'.log = t.log ∧ s'.last = t.last
        ∧ (∀ key, db.get key s'.store = (t.store.get key).1)
        ∧ ((adapt db).scan [] s'.store).1 = (t.store.scan []).1 := by
  have hbeside := beside_ofList hs
  -- Both parts run stores that are beside each other, with the same answers.
  constructor
  · intro calls ids notes
    rcases SortedStore.run_calls data calls ids notes with ⟨answers, t, hsorted, -, -⟩
    have hstart : (Surroundings.mk s ids notes).Alike (Beside holds)
        ⟨.ofList data, ids, notes⟩ := ⟨hbeside, rfl, rfl⟩
    have hrun := h.answersAs_sorted.run (Access.mapList StoreCall.ask calls) hstart
    rw [hsorted] at hrun
    rcases hrun.eq_ok with ⟨s', hs', hfinal⟩
    exact ⟨answers, s', t, hs', hsorted, h.get_eq_of_beside hfinal⟩
  · intro connections keepsLines log last texts
    have halike : (Session.mk (adapt db) s connections keepsLines log last).Alike (Beside holds)
        ⟨sortedBackend, .ofList data, connections, keepsLines, log, last⟩ :=
      ⟨h.answersAs_sorted, hbeside, rfl, rfl, rfl, rfl⟩
    rcases halike.executeAll texts with ⟨houtcomes, hfinal⟩
    refine ⟨_, _, _, rfl, Prod.ext houtcomes.symm rfl, hfinal.connections, hfinal.log, hfinal.last,
      h.get_eq_of_beside hfinal.store, (h.answersAs_sorted.scan hfinal.store []).outcome⟩

/-- Keys that end in bytes that cannot be raised, beside keys above them, in the
    order in which they were given. -/
def highKeys : List Entry :=
  [([0xFF, 0xFF], [1]), ([1, 0xFF, 7], [2]), ([2], [3]), ([0xFF], [4]), ([1, 0xFF], [5])]

theorem as_sorted_highKeys :
    (∃ answers s' t,
      (Access.mapList StoreCall.ask
          [.scan [1, 0xFF], .scan [0xFF], .delete [0xFF], .scan [0xFF, 0xFF], .scan []]).run
          (adapt Heap.scanningRanges) ⟨(SortedStore.ofList highKeys).values, .drawing, []⟩
          = (.ok answers, ⟨s', .drawing, []⟩)
        ∧ (Access.mapList StoreCall.ask
          [.scan [1, 0xFF], .scan [0xFF], .delete [0xFF], .scan [0xFF, 0xFF], .scan []]).run
          sortedBackend ⟨.ofList highKeys, .drawing, []⟩ = (.ok answers, ⟨t, .drawing, []⟩)
        ∧ ∀ key, Heap.scanningRanges.get key s' = (t.get key).1)
    ∧ ∃ outcomes s' t,
      (Session.mk (adapt Heap.scanningRanges) (SortedStore.ofList highKeys).values
          [("main", ⟨some ⟨[0xFF, 0xFF]⟩, true, .drawing⟩)] true [] {}).executeAll
          [("main", some "CREATE TABLE t (a INTEGER)"), ("main", some "SELECT * FROM t")]
          = (outcomes, s')
        ∧ (Session.mk sortedBackend (.ofList highKeys)
          [("main", ⟨some ⟨[0xFF, 0xFF]⟩, true, .drawing⟩)] true [] {}).executeAll
          [("main", some "CREATE TABLE t (a INTEGER)"), ("main", some "SELECT * FROM t")]
          = (outcomes, t)
        ∧ s'.connections = t.connections ∧ s'.log = t.log ∧ s'.last = t.last
        ∧ (∀ key, Heap.scanningRanges.get key s'.store = (t.store.get key).1)
        ∧ ((adapt Heap.scanningRanges).scan [] s'.store).1 = (t.store.scan []).1 := by
  have hs : (SortedStore.ofList highKeys).values.Keeps fun key =>
      ((SortedStore.ofList highKeys).get key).1 :=
    ⟨(SortedStore.shows_ofList highKeys).distinct, fun _ => rfl⟩
  have has := Heap.scanningRanges_keeps.as_sorted hs
  exact ⟨has.1 _ _ _, has.2 _ _ _ _ _⟩

end Database.Keeps

end TableStore
