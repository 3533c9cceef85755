import TableStore.Sorting.Merge
import TableStore.Sorting.Run

/-!
# Sorting by Runs

A list is cut into runs, and neighbouring runs are merged until one is left.
If `below` is a consistent order the result is the list sorted, with equal
elements in the order they came in, however the runs are cut and merged. If it
is not, there is no sorted list, and what comes out is decided by which
elements are compared; this is why the whole procedure is fixed.

Which runs are merged first is decided by the boundaries between them. The
boundary of two runs lies at a level of the tree that halves the list again
and again: it is the first level at which the midpoints of the runs are in
different halves. Boundaries of deeper levels are merged away first.

## Main definitions

* `Pending`: A run that waits for being merged.
* `boundaryLevel`: The level of the boundary of two runs.
* `byRuns`: A list sorted by runs.
-/

namespace TableStore

namespace Sorting

/-- A run that waits for being merged: where it starts, its elements, and the
    level of its boundary with the run after it. -/
structure Pending (α : Type) where
  start : Nat
  run : List α
  level : Nat := 0

/-- The least length of a run in a list of a length, so that the number of runs
    is about a power of two. `odd` says whether a remainder was dropped. -/
def leastRunFrom (odd : Bool) (n : Nat) : Nat :=
  if n < 64 then n + odd.toNat else leastRunFrom (odd || n % 2 == 1) (n / 2)
termination_by n
decreasing_by omega

/-- The least length of a run in a list of a length. -/
def leastRun (n : Nat) : Nat :=
  leastRunFrom false n

/-- The first level at which the positions `a` and `b` of a list are in
    different halves, where the list has the length `whole`. -/
def levelOf (whole : Nat) : (steps a b : Nat) → Nat
  | 0, _, _ => 0
  | steps + 1, a, b =>
    if whole ≤ a then 1 + levelOf whole steps (2 * (a - whole)) (2 * (b - whole))
    else if whole ≤ b then 1
    else 1 + levelOf whole steps (2 * a) (2 * b)

/-- The level of the boundary of a run that starts at `start` and the run after
    it. All positions are doubled, so that midpoints are whole numbers. -/
def boundaryLevel (whole start first second : Nat) : Nat :=
  levelOf whole (whole + 1) (2 * start + first) (2 * start + first + (first + second))

/-- Two runs of a stack as one. -/
def mergePending {α : Type} (below : α → α → Bool) (threshold : Nat) (a b : Pending α) :
    Pending α × Nat :=
  let (run, threshold) := mergeRuns below threshold a.run b.run
  ({ a with run := run }, threshold)

/-- Merges the topmost runs of a stack while the boundary below the topmost
    one is deeper than a level. -/
def mergeDeeper {α : Type} (below : α → α → Bool) (level : Nat) :
    List (Pending α) → (threshold : Nat) → List (Pending α) × Nat
  | top :: next :: rest, threshold =>
    if level < next.level then
      let (run, threshold) := mergePending below threshold next top
      mergeDeeper below level (run :: rest) threshold
    else (top :: next :: rest, threshold)
  | stack, threshold => (stack, threshold)
termination_by stack => stack.length

/-- A stack with one more run, after the merges that its boundary asks for. -/
def pushRun {α : Type} (below : α → α → Bool) (whole start : Nat) (run : List α)
    (stack : List (Pending α)) (threshold : Nat) : List (Pending α) × Nat :=
  match stack with
  | [] => ([⟨start, run, 0⟩], threshold)
  | top :: _ =>
    let level := boundaryLevel whole top.start top.run.length run.length
    match mergeDeeper below level stack threshold with
    | (top :: rest, threshold) =>
      (⟨start, run, 0⟩ :: { top with level := level } :: rest, threshold)
    | ([], threshold) => ([⟨start, run, 0⟩], threshold)

/-- Cuts a list into runs and stacks them. Each run takes at least one element,
    so the length of the list is enough steps. -/
def stackRuns {α : Type} (below : α → α → Bool) (whole least : Nat) :
    (steps : Nat) → List α → List (Pending α) → (threshold : Nat) → List (Pending α) × Nat
  | 0, _, stack, threshold => (stack, threshold)
  | steps + 1, s, stack, threshold =>
    if s.isEmpty then (stack, threshold)
    else
      let (run, rest) := nextRun below least s
      let (stack, threshold) := pushRun below whole (whole - s.length) run stack threshold
      stackRuns below whole least steps rest stack threshold

/-- Merges the runs of a stack into one. The run below the two topmost ones is
    merged first if it is shorter than the topmost one. -/
def mergeAll {α : Type} (below : α → α → Bool) : List (Pending α) → (threshold : Nat) → List α
  | [], _ => []
  | [top], _ => top.run
  | [top, next], threshold => (mergePending below threshold next top).1.run
  | top :: next :: third :: rest, threshold =>
    if third.run.length < top.run.length then
      let (run, threshold) := mergePending below threshold third next
      mergeAll below (top :: run :: rest) threshold
    else
      let (run, threshold) := mergePending below threshold next top
      mergeAll below (run :: third :: rest) threshold
termination_by stack => stack.length

/-- A list sorted by runs. -/
def byRuns {α : Type} (below : α → α → Bool) (s : List α) : List α :=
  let (stack, threshold) :=
    stackRuns below s.length (leastRun s.length) s.length s [] leapLength
  mergeAll below stack threshold

end Sorting

end TableStore
