import TableStore.Catalog
import TableStore.Value.Compare

/-!
# Index Entries

An index has one entry for each row whose indexed value is not null. The key
of an entry holds the value and the row's id, and its value is the id, so the
rows with a given value are found by one scan.

A change of a row moves its entry only if the old and the new value differ as
numbers, texts and so on do: the two kinds of number share their entries.

## Main definitions

* `Index.update`: Moves the entry of a changed row.
* `Index.moveStored`: Moves an entry of an index that the catalog holds.
* `Index.backfill`: Adds the entries of rows that are there already.
* `Index.clear`: Removes every entry.
* `Index.rowIds`: The ids of the rows with a value.
-/

namespace TableStore

namespace Index

/-- The key of the entry for a value and a row's id. -/
def entryKey (layout : KeyLayout) (table index : String) (v id : Value) : Except Fault Bytes := do
  let start ← layout.indexValuePrefix table index v
  let id ← RowId.toKey id
  Key.ofComponents [id] (start ++ Key.encodeComponent id)

/-- Removes the entry for a value and a row's id. -/
def removeEntry (layout : KeyLayout) (table index : String) (v id : Value) : Access Unit := do
  let key ← Access.lift (entryKey layout table index v id)
  Access.remove key

/-- Adds the entry for a value and a row's id. -/
def addEntry (layout : KeyLayout) (table index : String) (v id : Value) : Access Unit := do
  let key ← Access.lift (entryKey layout table index v id)
  let data ← Access.lift (RowId.toEntry id)
  Access.store key data

/-- Moves the entry of a row from an old value to a new one. Null has no
    entry, and equal values share theirs. -/
def move (layout : KeyLayout) (table index : String) (old new id : Value) : Access Unit := do
  if old.equals new then pure ()
  else
    if !old.isNull then removeEntry layout table index old id
    if !new.isNull then addEntry layout table index new id

/-- Moves the entry of a row that changes. A row without members stands for
    one that is not there. -/
def update (layout : KeyLayout) (table index column : String) (old new : Row) (id : Value) :
    Access Unit :=
  move layout table index (Row.value old column) (Row.value new column) id

/-- Moves the entry of a row in an index that the catalog holds, whose name has
    to be a text as soon as an entry is concerned. -/
def moveStored (layout : KeyLayout) (table : String) (index : StoredIndex) (old new id : Value) :
    Access Unit := do
  if old.equals new then pure ()
  else
    let name ← Access.lift index.name.requireText
    move layout table name old new id

/-- Adds the entry of a new row. -/
def add (layout : KeyLayout) (table index column : String) (row : Row) (id : Value) :
    Access Unit :=
  update layout table index column [] row id

/-- Adds the entries of rows that are there already, and counts them. -/
def backfill (layout : KeyLayout) (table index column : String) :
    List (Value × Row) → Access Nat
  | [] => pure 0
  | (id, row) :: rest => do
    let v := Row.value row column
    if v.isNull then backfill layout table index column rest
    else
      addEntry layout table index v id
      let n ← backfill layout table index column rest
      pure (n + 1)

/-- Removes every key that carries a prefix, and counts them. -/
def removeAll (start : Bytes) : Access Nat := do
  let found ← Access.entries start
  Access.forList (fun entry => Access.remove entry.1) found
  pure found.length

/-- Removes every entry of an index, and counts them. -/
def clear (layout : KeyLayout) (table index : String) : Access Nat := do
  let start ← Access.lift (layout.indexPrefix? table index)
  removeAll start

/-- The texts that the values of entries are. -/
def idsOf : List Entry → Except Fault (List String)
  | [] => .ok []
  | (_, data) :: rest =>
    match Text.decode? data with
    | none => .error .malformedUtf8
    | some id => do
      let ids ← idsOf rest
      .ok (id :: ids)

/-- The ids of the rows with a value, in the order of their keys. Nothing has
    the value null. -/
def rowIds (layout : KeyLayout) (table index : String) (v : Value) : Access (List String) := do
  if v.isNull then pure []
  else
    let start ← Access.lift (layout.indexValuePrefix table index v)
    let found ← Access.entries start
    Access.lift (idsOf found)

end Index

end TableStore
