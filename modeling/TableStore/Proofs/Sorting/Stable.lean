import Mathlib.Data.List.Basic

/-!
# Stable Sorting

Sorting is stable if elements of one class, which are those that compare equal,
keep the order in which they were found. For an order that is total this says
everything: there is one stable arrangement of a list, and it does not matter
how it is come by. Its first element is in the lowest class, and it is the
first of that class that was found, so two arrangements have the same head, and
what is left of them are arrangements of what is left.

## Main definitions

* `StablySorted`: A stable arrangement of a list.

## Theorems

* `stablySorted_mergeSort`: Merging sorts stably.
* `StablySorted.unique`: There is one stable arrangement.
-/

namespace TableStore

variable {α : Type} {cmp cmp' : α → α → Ordering} {found sorted sorted' : List α}

/-- A list with the elements that were found, in ascending order, in which those
    of one class are in the order in which they were found. -/
structure StablySorted (cmp : α → α → Ordering) (found sorted : List α) : Prop where
  perm : sorted.Perm found
  ascending : sorted.Pairwise fun a b => cmp a b ≠ .gt
  stable : ∀ a ∈ found,
    (sorted.filter fun b => cmp a b == .eq) = found.filter fun b => cmp a b == .eq

/-- The order matters only between elements that were found. -/
theorem StablySorted.congr (h : StablySorted cmp found sorted)
    (hcmp : ∀ a ∈ found, ∀ b ∈ found, cmp a b = cmp' a b) : StablySorted cmp' found sorted where
  perm := h.perm
  ascending := by
    refine h.ascending.imp_of_mem ?_
    intro a b ha hb hle
    rw [← hcmp a (h.perm.mem_iff.mp ha) b (h.perm.mem_iff.mp hb)]
    exact hle
  stable a ha := by
    have hclass : ∀ b ∈ found, (cmp' a b == .eq) = (cmp a b == .eq) := by
      intro b hb
      rw [hcmp a ha b hb]
    rw [List.filter_congr hclass, ← h.stable a ha]
    exact List.filter_congr fun b hb => hclass b (h.perm.mem_iff.mp hb)

section

variable [Std.TransCmp cmp]

/-- An element that is not above another is not above what that is not above. -/
theorem ne_gt_trans {a b c : α} (hab : cmp a b ≠ .gt) (hbc : cmp b c ≠ .gt) : cmp a c ≠ .gt := by
  have hle := Std.TransCmp.isLE_trans (Ordering.isLE_iff_ne_gt.mpr hab)
    (Ordering.isLE_iff_ne_gt.mpr hbc)
  exact Ordering.isLE_iff_ne_gt.mp hle

theorem ne_gt_self (a : α) : cmp a a ≠ .gt := by
  have hself : cmp a a = .eq := Std.ReflCmp.compare_self
  rw [hself]
  exact Ordering.noConfusion

/-- Merging sorts stably. -/
theorem stablySorted_mergeSort (found : List α) :
    StablySorted cmp found (found.mergeSort fun a b => cmp a b != .gt) := by
  have htrans : ∀ a b c : α, (cmp a b != .gt) = true → (cmp b c != .gt) = true →
      (cmp a c != .gt) = true := by
    intro a b c hab hbc
    exact bne_iff_ne.mpr (ne_gt_trans (bne_iff_ne.mp hab) (bne_iff_ne.mp hbc))
  have htotal : ∀ a b : α, ((cmp a b != .gt) || (cmp b a != .gt)) = true := by
    intro a b
    rw [@Std.OrientedCmp.eq_swap α cmp _ b a]
    cases cmp a b <;> rfl
  have hperm := List.mergeSort_perm found fun a b => cmp a b != .gt
  refine ⟨hperm, ?_, fun a _ => ?_⟩
  · exact (List.pairwise_mergeSort htrans htotal found).imp bne_iff_ne.mp
  · -- A class is in ascending order however it is arranged, so merging leaves it alone.
    have hclass : (found.filter fun b => cmp a b == .eq).Pairwise
        fun b c => (cmp b c != .gt) = true := by
      refine List.pairwise_of_forall_mem_list ?_
      intro b hb c hc
      have hba : cmp b a = .eq := Std.OrientedCmp.eq_symm (eq_of_beq (List.mem_filter.mp hb).2)
      have hac : cmp a c = .eq := eq_of_beq (List.mem_filter.mp hc).2
      exact bne_iff_ne.mpr (ne_gt_trans (by rw [hba]; simp) (by rw [hac]; simp))
    have hsublist := (List.sublist_mergeSort htrans htotal hclass List.filter_sublist).filter
      fun b => cmp a b == .eq
    rw [List.filter_filter] at hsublist
    simp only [Bool.and_self] at hsublist
    exact (hsublist.eq_of_length (hperm.filter _).length_eq.symm).symm

/-- Ascending lists with the same elements and the same classes are the same. -/
theorem eq_of_classes (hperm : sorted.Perm sorted') (h : sorted.Pairwise fun a b => cmp a b ≠ .gt)
    (h' : sorted'.Pairwise fun a b => cmp a b ≠ .gt)
    (hclass : ∀ a ∈ sorted,
      (sorted.filter fun b => cmp a b == .eq) = sorted'.filter fun b => cmp a b == .eq) :
    sorted = sorted' := by
  induction sorted generalizing sorted' with
  | nil => exact hperm.symm.eq_nil.symm
  | cons x rest ih =>
    cases sorted' with
    | nil => exact hperm.eq_nil
    | cons y rest' =>
      -- Neither head is above the other, since each is in the other list.
      have hle : cmp x y ≠ .gt := by
        rcases List.mem_cons.mp (hperm.mem_iff.mpr List.mem_cons_self) with rfl | hmem
        · exact ne_gt_self _
        · exact (List.pairwise_cons.mp h).1 y hmem
      have hge : cmp y x ≠ .gt := by
        rcases List.mem_cons.mp (hperm.mem_iff.mp List.mem_cons_self) with rfl | hmem
        · exact ne_gt_self _
        · exact (List.pairwise_cons.mp h').1 x hmem
      have hxy : cmp x y = .eq := by
        rw [@Std.OrientedCmp.eq_swap α cmp _ y x] at hge
        cases hcmp : cmp x y with
        | lt => exact absurd (by rw [hcmp]; rfl) hge
        | eq => rfl
        | gt => exact absurd hcmp hle
      have hxx : cmp x x = .eq := Std.ReflCmp.compare_self
      have hheads := hclass x List.mem_cons_self
      simp only [List.filter_cons, hxx, hxy, beq_self_eq_true, if_true] at hheads
      obtain rfl := (List.cons.inj hheads).1
      refine congrArg (x :: ·) (ih hperm.cons_inv (List.pairwise_cons.mp h).2
        (List.pairwise_cons.mp h').2 fun a ha => ?_)
      have hrest := hclass a (List.mem_cons_of_mem x ha)
      simp only [List.filter_cons] at hrest
      split at hrest
      · exact (List.cons.inj hrest).2
      · exact hrest

/-- There is one stable arrangement. -/
theorem StablySorted.unique (h : StablySorted cmp found sorted)
    (h' : StablySorted cmp found sorted') : sorted = sorted' := by
  refine eq_of_classes (h.perm.trans h'.perm.symm) h.ascending h'.ascending fun a ha => ?_
  have hmem : a ∈ found := h.perm.mem_iff.mp ha
  exact (h.stable a hmem).trans (h'.stable a hmem).symm

end

end TableStore
