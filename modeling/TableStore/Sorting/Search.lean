/-!
# Searching by Position

A position among elements is found by asking a question of single positions.
Where the answers turn from no to yes once, every search finds the turn. Where
they turn more often, what a search finds depends on the positions it asks, so
the two searches here fix them: one halves an interval, and the other first
leaves a starting position by steps of growing length.

## Main definitions

* `holdsAt`: Whether the element at a position has a property.
* `bisect`: The turn in an interval, found by halving.
* `gallop`: The turn near a position, found by growing steps and halving.
-/

namespace TableStore

namespace Sorting

/-- Whether there is an element at a position and it has a property. -/
def holdsAt {α : Type} (p : α → Bool) (s : List α) (i : Nat) : Bool :=
  match s[i]? with
  | some a => p a
  | none => false

/-- The position between `low` and `high` where the answers turn to yes, found
    by asking in the middle of what is left. -/
def bisect (turned : Nat → Bool) (low high : Nat) : Nat :=
  if low < high then
    if turned (low + (high - low) / 2) then bisect turned low (low + (high - low) / 2)
    else bisect turned (low + (high - low) / 2 + 1) high
  else low
termination_by high - low

/-- Tries the distances 1, 3, 7, … below a limit while `goes` holds of them. The
    first number is the last distance that was gone, and the second the next
    one, which is at most the limit. -/
def stride (goes : Nat → Bool) (limit gone next : Nat) : Nat × Nat :=
  if next < limit then
    if goes next then stride goes limit next (2 * next + 1) else (gone, next)
  else (gone, limit)
termination_by limit - next

/-- The position among `count` elements where the answers turn to yes, looked
    for from the position `start` on. -/
def gallop (turned : Nat → Bool) (count start : Nat) : Nat :=
  if turned start then
    let (near, far) := stride (fun d => turned (start - d)) (start + 1) 0 1
    bisect turned (start + 1 - far) (start - near)
  else
    let (near, far) := stride (fun d => !turned (start + d)) (count - start) 0 1
    bisect turned (start + near + 1) (start + far)

end Sorting

end TableStore
