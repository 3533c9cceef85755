import TableStore.Fault
import TableStore.RowId
import TableStore.Store.Memory

/-!
# Access to a Store

What a statement does is written as a dialogue: it asks for a key, a change or
a scan, and goes on with the answer. The dialogue does not know which store
answers. A backend says how a store answers each request, and running a
dialogue on a backend gives its outcome together with the store afterwards.

Nothing is undone when a dialogue fails. The store keeps the changes made
before the failure, ids stay drawn and lines stay in the log, which is why a
run returns all of these beside the outcome and not only on success.

## Main definitions

* `Access`: A dialogue with a store.
* `Backend`: How a store answers.
* `Surroundings`: The store, the source of ids and the log.
* `Access.run`: The outcome of a dialogue, and the surroundings after it.
* `memoryBackend`: The ordered store.
* `silentBackend`: A store that never answers.
* `Backend.keyless`: A store as it is met by those who cannot build a key.
-/

namespace TableStore

/-- A dialogue with a store that ends in a value or a fault. -/
inductive Access (α : Type) where
  | done (a : α)
  | fail (fault : Fault)
  /-- Asks for the value of a key. -/
  | get (key : Bytes) (next : Option Bytes → Access α)
  /-- Gives a key a value. -/
  | put (key value : Bytes) (next : Unit → Access α)
  /-- Removes a key. -/
  | delete (key : Bytes) (next : Unit → Access α)
  /-- Asks for the entries whose keys carry a prefix. -/
  | scan (start : Bytes) (next : List Entry → Access α)
  /-- Asks how many keys there are, at no cost. -/
  | size (next : Nat → Access α)
  /-- Draws an id for a row of a table. -/
  | newId (table : String) (next : String → Access α)
  /-- Adds a line to the log. -/
  | note (line : String) (next : Unit → Access α)

namespace Access

/-- Goes on with the value that a dialogue ends in. -/
def bind {α β : Type} : Access α → (α → Access β) → Access β
  | done a, f => f a
  | fail fault, _ => fail fault
  | get key next, f => get key fun answer => bind (next answer) f
  | put key value next, f => put key value fun answer => bind (next answer) f
  | delete key next, f => delete key fun answer => bind (next answer) f
  | scan start next, f => scan start fun answer => bind (next answer) f
  | size next, f => size fun answer => bind (next answer) f
  | newId table next, f => newId table fun answer => bind (next answer) f
  | note line next, f => note line fun answer => bind (next answer) f

instance : Monad Access where
  pure := done
  bind := bind

/-- A dialogue that asks nothing and ends in an outcome. -/
def lift {α : Type} : Except Fault α → Access α
  | .ok a => done a
  | .error fault => fail fault

/-- The value of a key. -/
def fetch (key : Bytes) : Access (Option Bytes) := get key done

/-- Gives a key a value. -/
def store (key value : Bytes) : Access Unit := put key value done

/-- Removes a key. -/
def remove (key : Bytes) : Access Unit := delete key done

/-- The entries whose keys carry a prefix, in the order of the keys. -/
def entries (start : Bytes) : Access (List Entry) := scan start done

/-- The number of keys. -/
def keyCount : Access Nat := size done

/-- An id for a row of a table. -/
def drawId (table : String) : Access String := newId table done

/-- Adds a line to the log. -/
def log (line : String) : Access Unit := note line done

/-- Goes through a list and ends in the list of the values. -/
def mapList {α β : Type} (f : α → Access β) : List α → Access (List β)
  | [] => done []
  | a :: rest => do
    let b ← f a
    let bs ← mapList f rest
    pure (b :: bs)

/-- Goes through a list for its effects. -/
def forList {α : Type} (f : α → Access Unit) : List α → Access Unit
  | [] => done ()
  | a :: rest => do
    f a
    forList f rest

end Access

/-- How a store answers requests. Each answer comes with the store after
    it. -/
structure Backend (σ : Type) where
  get : Bytes → σ → Except Fault (Option Bytes) × σ
  put : Bytes → Bytes → σ → Except Fault Unit × σ
  delete : Bytes → σ → Except Fault Unit × σ
  scan : Bytes → σ → Except Fault (List Entry) × σ
  size : σ → Nat

/-- The ordered store, which always answers. -/
def memoryBackend : Backend Memory where
  get key m := let (v, m) := m.lookup key; (.ok v, m)
  put key value m := (.ok (), m.insert key value)
  delete key m := (.ok (), m.erase key)
  scan start m := let (found, m) := m.scan start; (.ok found, m)
  size m := m.entries.length

/-- A store that never answers. -/
def silentBackend : Backend Unit where
  get _ s := (.error .storeUnavailable, s)
  put _ _ s := (.error .storeUnavailable, s)
  delete _ s := (.error .storeUnavailable, s)
  scan _ s := (.error .storeUnavailable, s)
  size _ := 0

/-- A store as it is met by those who cannot build a key: every request fails
    before the store is asked. -/
def Backend.keyless {σ : Type} (backend : Backend σ) : Backend σ where
  get _ s := (.error .settingNotUsable, s)
  put _ _ s := (.error .settingNotUsable, s)
  delete _ s := (.error .settingNotUsable, s)
  scan _ s := (.error .settingNotUsable, s)
  size := backend.size

/-- What a dialogue is run in: the store, the source of ids, and the lines of
    the log, the latest one first. -/
structure Surroundings (σ : Type) where
  store : σ
  ids : IdSource
  notes : List String

namespace Access

/-- The outcome of a dialogue, and the surroundings after it. -/
def run {σ α : Type} (backend : Backend σ) :
    Access α → Surroundings σ → Except Fault α × Surroundings σ
  | done a, w => (.ok a, w)
  | fail fault, w => (.error fault, w)
  | get key next, w =>
    match backend.get key w.store with
    | (.ok answer, s) => run backend (next answer) { w with store := s }
    | (.error fault, s) => (.error fault, { w with store := s })
  | put key value next, w =>
    match backend.put key value w.store with
    | (.ok answer, s) => run backend (next answer) { w with store := s }
    | (.error fault, s) => (.error fault, { w with store := s })
  | delete key next, w =>
    match backend.delete key w.store with
    | (.ok answer, s) => run backend (next answer) { w with store := s }
    | (.error fault, s) => (.error fault, { w with store := s })
  | scan start next, w =>
    match backend.scan start w.store with
    | (.ok answer, s) => run backend (next answer) { w with store := s }
    | (.error fault, s) => (.error fault, { w with store := s })
  | size next, w => run backend (next (backend.size w.store)) w
  | newId table next, w =>
    match w.ids.next table with
    | (.ok id, ids) => run backend (next id) { w with ids := ids }
    | (.error fault, ids) => (.error fault, { w with ids := ids })
  | note line next, w => run backend (next ()) { w with notes := line :: w.notes }

end Access

end TableStore
