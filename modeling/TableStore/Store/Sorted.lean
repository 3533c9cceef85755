import TableStore.Sorting.Search
import TableStore.Store.Adapter

/-!
# The Sorted Store

The store that is used when no database is given. It keeps the values under
their keys in no particular order, and beside them the keys alone in ascending
order, since only a scan needs the order. The place of a key in the list is
found by halving.

Nothing ties the two parts together but what the operations do. Where they
disagree, an operation fails after what it has already changed: a scan that
lists a key without a value, and a removal that does not find the place of a
key with one.

## Main definitions

* `SortedStore`: Values under their keys, and the keys in order.
* `SortedStore.lowerPosition`, `upperPosition`: Places in the list of keys.
* `SortedStore.get`, `put`, `delete`, `scan`: Its operations.
* `sortedBackend`: The sorted store as a backend.
-/

namespace TableStore

/-- Values under their keys, and beside them the keys in ascending order. It
    counts the operations asked of it. -/
structure SortedStore where
  values : Heap := {}
  keys : List Bytes := []
  usage : Usage := {}

namespace SortedStore

/-- The first place whose key is not below a key. -/
def lowerPosition (key : Bytes) (keys : List Bytes) : Nat :=
  Sorting.bisect (Sorting.holdsAt (fun k => !decide (k < key)) keys) 0 keys.length

/-- The first place whose key is above a key. -/
def upperPosition (key : Bytes) (keys : List Bytes) : Nat :=
  Sorting.bisect (Sorting.holdsAt (fun k => decide (key < k)) keys) 0 keys.length

/-- Whether a key has a value; not counted. -/
def contains (key : Bytes) (s : SortedStore) : Bool :=
  (lookupEntry key s.values.entries).isSome

/-- The value of a key, counted as a get. -/
def get (key : Bytes) (s : SortedStore) : Option Bytes × SortedStore :=
  (lookupEntry key s.values.entries, { s with usage := { s.usage with gets := s.usage.gets + 1 } })

/-- The keys with one more in its place. -/
def listed (key : Bytes) (keys : List Bytes) : List Bytes :=
  keys.take (upperPosition key keys) ++ key :: keys.drop (upperPosition key keys)

/-- The store with a key given a value, counted as a put. The key is listed if
    it had no value. -/
def put (key value : Bytes) (s : SortedStore) : SortedStore :=
  { values := ⟨Heap.insert key value s.values.entries⟩,
    keys := if s.contains key then s.keys else listed key s.keys,
    usage := { s.usage with puts := s.usage.puts + 1 } }

/-- The store without a key, counted as a delete. The place of the key in the
    list is looked for after the value is gone. -/
def delete (key : Bytes) (s : SortedStore) : Except Fault Unit × SortedStore :=
  let counted := { s with usage := { s.usage with deletes := s.usage.deletes + 1 } }
  if s.contains key then
    let emptied := { counted with values := ⟨eraseEntry key s.values.entries⟩ }
    if lowerPosition key s.keys < s.keys.length then
      (.ok (), { emptied with keys := s.keys.eraseIdx (lowerPosition key s.keys) })
    else (.error .keyNotListed, emptied)
  else (.ok (), counted)

/-- The first keys of a list with their values, while they carry a prefix. -/
def walk (start : Bytes) (values : List Entry) : List Bytes → Except Fault (List Entry)
  | [] => .ok []
  | key :: rest =>
    if Bytes.carries start key then
      match lookupEntry key values with
      | none => .error .keyWithoutValue
      | some value => do
        let others ← walk start values rest
        .ok ((key, value) :: others)
    else .ok []

/-- The keys that carry a prefix with their values, in order, counted as a
    scan. -/
def scan (start : Bytes) (s : SortedStore) : Except Fault (List Entry) × SortedStore :=
  (walk start s.values.entries (s.keys.drop (lowerPosition start s.keys)),
    { s with usage := { s.usage with scans := s.usage.scans + 1 } })

/-- The store with nothing counted. -/
def resetUsage (s : SortedStore) : SortedStore :=
  { s with usage := {} }

/-- The store that giving each key its value in turn leaves. -/
def ofList (entries : List Entry) : SortedStore :=
  entries.foldl (fun s entry => s.put entry.1 entry.2) {}

end SortedStore

/-- The sorted store as a backend. -/
def sortedBackend : Backend SortedStore where
  get key s := let (v, s) := s.get key; (.ok v, s)
  put key value s := (.ok (), s.put key value)
  delete key s := s.delete key
  scan start s := s.scan start
  size s := s.values.entries.length

end TableStore
