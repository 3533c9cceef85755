import TableStore.Bytes

/-!
# The Ordered Store

What everything is kept in, as it is seen from outside: byte strings under byte
strings, in the order of the keys. It counts the operations asked of it. The
store that runs finds the places of keys instead of going through them, and a
database scans as it likes, but both answer as this one does.

A scan looks up where the keys with a prefix would start and reads on while
they carry it. That finds all of them because keys with a common prefix are
neighbours in the order.

## Main definitions

* `Usage`: How often each operation was asked for.
* `Memory`: An ordered store.
* `Memory.lookup`, `Memory.insert`, `Memory.erase`, `Memory.scan`: Its
  operations on the entries.
-/

namespace TableStore

/-- A key with its value. -/
abbrev Entry := Bytes × Bytes

/-- How often each operation of a store was asked for. -/
structure Usage where
  gets : Nat := 0
  puts : Nat := 0
  deletes : Nat := 0
  scans : Nat := 0
  deriving DecidableEq

/-- An ordered store: its entries in ascending order of their keys. -/
structure Memory where
  entries : List Entry := []
  usage : Usage := {}
  deriving DecidableEq

/-- The entries with a key given a value, in its place in the order. -/
def insertEntry (key value : Bytes) : List Entry → List Entry
  | [] => [(key, value)]
  | (k, v) :: rest =>
    if key = k then (key, value) :: rest
    else if key < k then (key, value) :: (k, v) :: rest
    else (k, v) :: insertEntry key value rest

/-- The entries without a key. -/
def eraseEntry (key : Bytes) : List Entry → List Entry
  | [] => []
  | (k, v) :: rest => if key = k then rest else (k, v) :: eraseEntry key rest

/-- The value of a key. -/
def lookupEntry (key : Bytes) : List Entry → Option Bytes
  | [] => none
  | (k, v) :: rest => if key = k then some v else lookupEntry key rest

/-- The entries from the first key that is not below `start`, while they carry
    it. -/
def scanEntries (start : Bytes) (entries : List Entry) : List Entry :=
  (entries.dropWhile fun entry => decide (entry.1 < start)).takeWhile fun entry =>
    Bytes.carries start entry.1

namespace Memory

/-- The store with no entries and nothing counted. -/
def empty : Memory := {}

/-- The value of a key, counted as a get. -/
def lookup (key : Bytes) (m : Memory) : Option Bytes × Memory :=
  (lookupEntry key m.entries, { m with usage := { m.usage with gets := m.usage.gets + 1 } })

/-- The store with a key given a value, counted as a put. -/
def insert (key value : Bytes) (m : Memory) : Memory :=
  { entries := insertEntry key value m.entries,
    usage := { m.usage with puts := m.usage.puts + 1 } }

/-- The store without a key, counted as a delete. -/
def erase (key : Bytes) (m : Memory) : Memory :=
  { entries := eraseEntry key m.entries,
    usage := { m.usage with deletes := m.usage.deletes + 1 } }

/-- The entries whose keys carry a prefix, in order, counted as a scan. -/
def scan (start : Bytes) (m : Memory) : List Entry × Memory :=
  (scanEntries start m.entries, { m with usage := { m.usage with scans := m.usage.scans + 1 } })

end Memory

end TableStore
