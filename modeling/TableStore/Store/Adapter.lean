import TableStore.Store.Access

/-!
# Adapting Other Stores

A database that keeps byte strings under byte strings can stand in for an
ordered store even if it promises little about its scans. It may scan by
prefix, returning more than was asked for and in any order, or it may scan a
range of keys. The range of a prefix ends at the least key above every key
with the prefix; it is the prefix with its last byte that is not the highest
one raised by one, and everything after that byte cut off. Filtering and
sorting what comes back makes the answer that of an ordered store.

## Main definitions

* `prefixUpperBound`: The end of the range of a prefix.
* `Database`: A database with one kind of scan.
* `adapt`: A database as a backend.
* `checkMethods`: Whether an object offers what a database needs.
* `Heap`: A database that keeps entries in the order of insertion.
-/

namespace TableStore

/-- The least byte string above every byte string that starts with `start`,
    and the empty one if there is none. -/
def prefixUpperBound (start : Bytes) : Bytes :=
  match (start.reverse.dropWhile fun b => b == 0xFF) with
  | [] => []
  | b :: rest => (rest.reverse ++ [b + 1])

/-- The kind of scan that a database offers. The end of a range is empty if
    the range has none. -/
inductive DatabaseScan (σ : Type) where
  | byPrefix (scan : Bytes → σ → List Entry)
  | byRange (scan : Bytes → Bytes → σ → List Entry)

/-- A database that keeps byte strings under byte strings. -/
structure Database (σ : Type) where
  get : Bytes → σ → Option Bytes
  put : Bytes → Bytes → σ → σ
  delete : Bytes → σ → σ
  scan : DatabaseScan σ

/-- What a database's scan returns for a prefix. -/
def Database.candidates {σ : Type} (db : Database σ) (start : Bytes) (s : σ) : List Entry :=
  match db.scan with
  | .byPrefix scan => scan start s
  | .byRange scan => scan start (prefixUpperBound start) s

/-- A database as a backend. -/
def adapt {σ : Type} (db : Database σ) : Backend σ where
  get key s := (.ok (db.get key s), s)
  put key value s := (.ok (), db.put key value s)
  delete key s := (.ok (), db.delete key s)
  scan start s :=
    let found := (db.candidates start s).filter fun entry => Bytes.carries start entry.1
    (.ok (found.mergeSort fun a b => decide (a.1 ≤ b.1)), s)
  size s := (db.candidates [] s).length

/-- Whether an object offers the methods that a database needs, and otherwise
    which one is missing. An attribute of the object hides a method of the same
    name. -/
def checkMethods (object : String) (methods attributes : List String) : Except Fault Unit :=
  let offered := methods.filter fun name => !attributes.contains name
  match ["get", "put", "delete"].find? fun name => !offered.contains name with
  | some name => .error (.missingMethod object name)
  | none =>
    if offered.contains "scan_prefix" || offered.contains "scan" then .ok ()
    else .error (.missingScan object)

/-- Entries in the order in which their keys were first given. -/
structure Heap where
  entries : List Entry := []

namespace Heap

/-- The entries with a key given a value, in its place if it is there and at
    the end if it is not. -/
def insert (key value : Bytes) : List Entry → List Entry
  | [] => [(key, value)]
  | (k, v) :: rest =>
    if key = k then (key, value) :: rest else (k, v) :: insert key value rest

/-- A database that scans by prefix and returns the newest keys first. -/
def scanningPrefixes : Database Heap where
  get key h := lookupEntry key h.entries
  put key value h := ⟨insert key value h.entries⟩
  delete key h := ⟨eraseEntry key h.entries⟩
  scan := .byPrefix fun start h =>
    (h.entries.filter fun entry => Bytes.carries start entry.1).reverse

/-- A database that scans ranges of keys, the end included. -/
def scanningRanges : Database Heap where
  get key h := lookupEntry key h.entries
  put key value h := ⟨insert key value h.entries⟩
  delete key h := ⟨eraseEntry key h.entries⟩
  scan := .byRange fun start stop h =>
    h.entries.filter fun entry =>
      decide (start ≤ entry.1) && (stop.isEmpty || decide (entry.1 ≤ stop))

end Heap

end TableStore
