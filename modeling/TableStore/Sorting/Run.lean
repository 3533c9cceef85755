import TableStore.Sorting.Search

/-!
# Runs

A run is a stretch of neighbouring elements that is in order already. A list
starts with a run that either never descends or descends at every step; a
descending one is turned around, which keeps equal elements in place because
it has none. A run that is too short to be worth merging is made longer by
inserting the elements after it, each behind those that it is not below.

## Main definitions

* `takeRun`: The run that a list starts with, and the rest.
* `insertElement`: A run with one more element in its place.
* `nextRun`: The run that a list starts with, of a length at least.
-/

namespace TableStore

namespace Sorting

/-- The elements that go on without descending from `last`, and the rest. -/
def takeAscending {α : Type} (below : α → α → Bool) (last : α) : List α → List α × List α
  | [] => ([], [])
  | a :: s =>
    if below a last then ([], a :: s)
    else
      let (run, rest) := takeAscending below a s
      (a :: run, rest)

/-- The elements that go on descending from `last`, and the rest. -/
def takeDescending {α : Type} (below : α → α → Bool) (last : α) : List α → List α × List α
  | [] => ([], [])
  | a :: s =>
    if below a last then
      let (run, rest) := takeDescending below a s
      (a :: run, rest)
    else ([], a :: s)

/-- The run that a list starts with, in order, and the rest. -/
def takeRun {α : Type} (below : α → α → Bool) : List α → List α × List α
  | [] => ([], [])
  | [a] => ([a], [])
  | a :: b :: s =>
    if below b a then
      let (run, rest) := takeDescending below b s
      ((a :: b :: run).reverse, rest)
    else
      let (run, rest) := takeAscending below b s
      (a :: b :: run, rest)

/-- A run with one more element, behind those that it is not below. -/
def insertElement {α : Type} (below : α → α → Bool) (run : List α) (a : α) : List α :=
  let i := bisect (holdsAt (below a) run) 0 run.length
  run.take i ++ a :: run.drop i

/-- The run that a list starts with, and the rest. The run has the length
    `least` at least, unless the list is shorter. -/
def nextRun {α : Type} (below : α → α → Bool) (least : Nat) (s : List α) : List α × List α :=
  let (run, rest) := takeRun below s
  let missing := least - run.length
  ((rest.take missing).foldl (insertElement below) run, rest.drop missing)

end Sorting

end TableStore
