import TableStore.Sorting.Search

/-!
# Merging Two Runs

Two neighbouring runs become one. What is in its place already is left alone:
the first elements of the one run and the last elements of the other. The rest
is merged from the end at which the shorter run stands, so that merging ends
as soon as one element of the shorter run is left, which goes last.

Merging goes by single comparisons until one run has won often enough in
succession. Then it goes by leaps: it searches how far each run is to be taken
before the other one's next element, and it returns to single comparisons when
leaps become short. How many wins it takes is a threshold that falls with every
leap that follows another and rises when leaping ends, and that lasts from one
merge to the next.

## Main definitions

* `Side`: The end from which runs are merged.
* `Merging`: Two runs that are merged in part.
* `merge`: Merges what is left of two runs.
* `mergeRuns`: Two neighbouring runs as one.
-/

namespace TableStore

namespace Sorting

/-- The end from which two runs are merged. -/
inductive Side where
  | front
  | back

/-- Two runs that are merged in part: what is merged, the latest element first,
    and what is left of the shorter and of the longer run, starting at the end
    from which they are merged. -/
structure Merging (α : Type) where
  merged : List α
  shorter : List α
  longer : List α

/-- How runs are merged: by single comparisons, with the wins of each run in
    succession, or by leaps, which may follow another one. -/
inductive Pace where
  | single (shorterWins longerWins : Nat)
  | leaping (again : Bool)

/-- How long a leap has to be for another one to follow. -/
def leapLength : Nat := 7

/-- How many elements at the start of a list satisfy a property, looked for
    from that start. The list is given from the end that is merged from. -/
def reach {α : Type} (side : Side) (p : α → Bool) (s : List α) : Nat :=
  match side with
  | .front => gallop (fun i => !holdsAt p s i) s.length 0
  | .back => s.length - gallop (holdsAt p s.reverse) s.length (s.length - 1)

namespace Merging

/-- What follows when no choice is left: one of the runs is used up, or the
    shorter one has a single element, which goes last. -/
def settled? {α : Type} (m : Merging α) : Option (List α) :=
  match m.shorter, m.longer with
  | shorter, [] => some shorter
  | [], longer => some longer
  | [a], longer => some (longer ++ [a])
  | _, _ => none

/-- All elements in order, given those that follow the merged ones. -/
def complete {α : Type} (m : Merging α) (rest : List α) : List α :=
  m.merged.reverse ++ rest

/-- Takes the next element of the longer run. -/
def takeLonger {α : Type} (m : Merging α) : Merging α :=
  match m.longer with
  | [] => m
  | a :: rest => { m with merged := a :: m.merged, longer := rest }

/-- Takes the next element of the shorter run. -/
def takeShorter {α : Type} (m : Merging α) : Merging α :=
  match m.shorter with
  | [] => m
  | a :: rest => { m with merged := a :: m.merged, shorter := rest }

/-- Takes all of the shorter run that goes before the next element of the
    longer one, and then that element if there is a choice left. `first` says
    whether an element of the longer run goes before one of the shorter. -/
def leapShorter {α : Type} (side : Side) (first : α → α → Bool) (m : Merging α) :
    Nat × Merging α :=
  match m.longer with
  | [] => (0, m)
  | a :: _ =>
    let n := reach side (fun b => !first a b) m.shorter
    let m := { m with
      merged := (m.shorter.take n).reverse ++ m.merged, shorter := m.shorter.drop n }
    (n, if m.settled?.isSome then m else m.takeLonger)

/-- Takes all of the longer run that goes before the next element of the
    shorter one, and then that element if there is a choice left. -/
def leapLonger {α : Type} (side : Side) (first : α → α → Bool) (m : Merging α) :
    Nat × Merging α :=
  match m.shorter with
  | [] => (0, m)
  | b :: _ =>
    let n := reach side (fun a => first a b) m.longer
    let m := { m with
      merged := (m.longer.take n).reverse ++ m.merged, longer := m.longer.drop n }
    (n, if m.settled?.isSome then m else m.takeShorter)

/-- A leap on each run, the first on the run that stands at the front. -/
def leap {α : Type} (side : Side) (first : α → α → Bool) (m : Merging α) : Bool × Merging α :=
  let (one, two) := match side with
    | .front => (leapShorter side first, leapLonger side first)
    | .back => (leapLonger side first, leapShorter side first)
  let (n, m) := one m
  if m.settled?.isSome then (false, m)
  else
    let (k, m) := two m
    (leapLength ≤ n || leapLength ≤ k, m)

end Merging

/-- Merges what is left of two runs, and gives the threshold afterwards. Each
    step takes at least one element, so their number is enough steps. -/
def merge {α : Type} (side : Side) (first : α → α → Bool) :
    (steps : Nat) → Pace → (threshold : Nat) → Merging α → List α × Nat
  | 0, _, threshold, m => (m.complete (m.longer ++ m.shorter), threshold)
  | steps + 1, pace, threshold, m =>
    match m.settled?, pace with
    | some rest, _ => (m.complete rest, threshold)
    | none, .single shorterWins longerWins =>
      let longerFirst := match m.shorter, m.longer with
        | b :: _, a :: _ => first a b
        | _, _ => false
      let wins := if longerFirst then longerWins + 1 else shorterWins + 1
      let next : Pace :=
        if threshold ≤ wins then .leaping false
        else if longerFirst then .single 0 wins
        else .single wins 0
      merge side first steps next threshold
        (if longerFirst then m.takeLonger else m.takeShorter)
    | none, .leaping again =>
      let threshold := if again && 1 < threshold then threshold - 1 else threshold
      let (long, m) := m.leap side first
      if m.settled?.isSome then merge side first steps (.leaping true) threshold m
      else if long then merge side first steps (.leaping true) threshold m
      else merge side first steps (.single 0 0) (threshold + 1) m

/-- Merges two runs that are both to be taken apart. The first element of the
    longer run is known to go first. -/
def mergeShorter {α : Type} (side : Side) (first : α → α → Bool) (threshold : Nat)
    (shorter longer : List α) : List α × Nat :=
  merge side first (shorter.length + longer.length + 1) (.single 0 0) threshold
    (Merging.takeLonger ⟨[], shorter, longer⟩)

/-- Two neighbouring runs as one, and the threshold afterwards. -/
def mergeRuns {α : Type} (below : α → α → Bool) (threshold : Nat) (a b : List α) :
    List α × Nat :=
  match b.head? with
  | none => (a, threshold)
  | some least =>
    -- What of the first run comes before all of the second one is in its place already.
    let n := gallop (holdsAt (below least) a) a.length 0
    let before := a.take n
    let a := a.drop n
    match a.getLast? with
    | none => (before ++ b, threshold)
    | some greatest =>
      -- So is what of the second run comes after all of the first one.
      let k := gallop (fun i => !holdsAt (fun x => below x greatest) b i) b.length (b.length - 1)
      let after := b.drop k
      let b := b.take k
      if b.isEmpty then (before ++ a ++ after, threshold)
      -- The merge starts at the side of the shorter run.
      else if a.length ≤ b.length then
        let (merged, threshold) := mergeShorter .front below threshold a b
        (before ++ merged ++ after, threshold)
      else
        let (merged, threshold) :=
          mergeShorter .back (fun x y => below y x) threshold b.reverse a.reverse
        (before ++ merged.reverse ++ after, threshold)

end Sorting

end TableStore
