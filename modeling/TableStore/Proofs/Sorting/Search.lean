import Mathlib.Data.List.Basic
import TableStore.Sorting.Search

/-!
# What a Search Finds

Halving an interval finds the one place where the answers turn, if they turn
once: below it all answers are no, and from it on all are yes. Both halves keep
that place between their ends, so the search comes to it. For a property of
elements the answers turn once if an element that has it is followed only by
elements that have it, and the place is the number of the elements before the
first that has it.

## Theorems

* `bisect_eq`: The place where the answers turn.
* `bisect_holdsAt`: The number of the elements before the turn.
* `take_bisect`, `drop_bisect`: The elements before the place that is found,
  and the others.
-/

namespace TableStore

namespace Sorting

/-- A search finds the place where the answers turn from no to yes. -/
theorem bisect_eq {turned : Nat → Bool} {low high n : Nat} (hlow : low ≤ n) (hhigh : n ≤ high)
    (hturn : ∀ i, low ≤ i → i < high → (turned i = true ↔ n ≤ i)) :
    bisect turned low high = n := by
  induction low, high using bisect.induct turned with
  | case1 low high hlt hyes ih =>
    rw [bisect, if_pos hlt, if_pos hyes]
    -- The answer in the middle is yes, so the turn is not behind it.
    have hn : n ≤ low + (high - low) / 2 := (hturn _ (by omega) (by omega)).mp hyes
    exact ih hlow hn fun i hi hlt => hturn i hi (by omega)
  | case2 low high hlt hno ih =>
    rw [bisect, if_pos hlt, if_neg hno]
    have hn : ¬n ≤ low + (high - low) / 2 := fun h => hno ((hturn _ (by omega) (by omega)).mpr h)
    exact ih (by omega) hhigh fun i hi hlt => hturn i (by omega) hlt
  | case3 low high hnlt =>
    rw [bisect, if_neg hnlt]
    omega

variable {α : Type} {p : α → Bool} {s : List α}

theorem holdsAt_cons_zero (p : α → Bool) (a : α) (s : List α) : holdsAt p (a :: s) 0 = p a :=
  rfl

theorem holdsAt_cons_succ (p : α → Bool) (a : α) (s : List α) (i : Nat) :
    holdsAt p (a :: s) (i + 1) = holdsAt p s i :=
  rfl

/-- Where an element with a property is followed only by such elements, a
    position has one exactly if it is not among those before the first. -/
theorem holdsAt_iff (hs : s.Pairwise fun a b => p a = true → p b = true) {i : Nat}
    (hi : i < s.length) :
    holdsAt p s i = true ↔ (s.takeWhile fun a => !p a).length ≤ i := by
  induction s generalizing i with
  | nil => exact absurd hi (Nat.not_lt_zero i)
  | cons a s ih =>
    rcases List.pairwise_cons.mp hs with ⟨hhead, htail⟩
    -- From the first item on that has the property, every item has it.
    by_cases ha : p a = true
    · rw [List.takeWhile_cons_of_neg (by simp [ha]), List.length_nil]
      refine ⟨fun _ => Nat.zero_le i, fun _ => ?_⟩
      cases i with
      | zero => exact ha
      | succ i =>
        have hlt : i < s.length := Nat.lt_of_succ_lt_succ hi
        rw [holdsAt_cons_succ, holdsAt, List.getElem?_eq_getElem hlt]
        exact hhead _ (List.getElem_mem hlt) ha
    · rw [List.takeWhile_cons_of_pos (by simp [ha]), List.length_cons]
      cases i with
      | zero => simp [holdsAt_cons_zero, ha]
      | succ i =>
        rw [holdsAt_cons_succ, ih htail (Nat.lt_of_succ_lt_succ hi), Nat.add_le_add_iff_right]

/-- A search among elements finds the number of those before the turn. -/
theorem bisect_holdsAt (hs : s.Pairwise fun a b => p a = true → p b = true) :
    bisect (holdsAt p s) 0 s.length = (s.takeWhile fun a => !p a).length :=
  bisect_eq (Nat.zero_le _) (List.takeWhile_sublist _).length_le fun _ _ hi => holdsAt_iff hs hi

/-- The elements before the place that is found. -/
theorem take_bisect (hs : s.Pairwise fun a b => p a = true → p b = true) :
    s.take (bisect (holdsAt p s) 0 s.length) = s.takeWhile fun a => !p a := by
  rw [bisect_holdsAt hs]
  exact (List.prefix_iff_eq_take.mp (List.takeWhile_prefix _)).symm

/-- The elements from the place that is found on. -/
theorem drop_bisect (hs : s.Pairwise fun a b => p a = true → p b = true) :
    s.drop (bisect (holdsAt p s) 0 s.length) = s.dropWhile fun a => !p a := by
  have hparts : (s.takeWhile fun a => !p a) ++ s.drop (bisect (holdsAt p s) 0 s.length)
      = (s.takeWhile fun a => !p a) ++ s.dropWhile fun a => !p a := by
    rw [List.takeWhile_append_dropWhile, ← take_bisect hs, List.take_append_drop]
  exact List.append_cancel_left hparts

end Sorting

end TableStore
