import Mathlib.Algebra.Order.Floor.Ring
import Mathlib.Data.Rat.Floor
import Mathlib.Order.Monotone.Basic
import Mathlib.Tactic.FieldSimp
import Mathlib.Tactic.Linarith
import Mathlib.Tactic.NormNum
import Mathlib.Tactic.Positivity
import Mathlib.Tactic.Ring
import TableStore.Double.Decimal

/-!
# Rounding Finds the Nearest Double

The doubles of one sign lie on the number line in the order of their ranks, and
`magnitude_succ` gives the distance of two neighbours. Everything else about
the number line follows from that one equation.

A rational rounds to the rank whose interval it lies in, where an interval
reaches from the midpoint with the neighbour below to the midpoint with the
neighbour above and holds its ends if the rank is even. `Surrounds` states
this. Two intervals meet at most in a midpoint, whose two ranks are not both
even, so `surrounds_unique` leaves only one rank for each rational. The rank
that `nearestRank` computes surrounds its argument, hence it is that rank.

The computation works on a block of evenly spaced ranks and may round up to
the end of its block, which is the start of the next one.
`magnitude_block` covers the end as well, so no case is made of it.

## Main definitions

* `Double.Surrounds`: A rank whose interval holds a rational.

## Theorems

* `Double.magnitude_block`: The number at a position of a block.
* `Double.magnitude_succ`: The distance of two neighbours.
* `Double.magnitude_strictMono`: Numbers are in the order of their ranks.
* `Double.surrounds_unique`: A rational lies in one interval only.
* `roundHalfEven_spec`: The nearest integer, with ties to the even one.
* `Double.binaryExponent_spec`: The power of two below a positive number.
* `Double.surrounds_nearestRank`: The computed rank surrounds its argument.
* `Double.ofMagnitude_eq`: Rounding finds the surrounding rank.
* `Double.add_ne_nan`: Only opposite infinities have no sum.
-/

namespace TableStore

namespace Double

/-- The number at position `n` of the block with spacing `2 ^ (e - 1074)`. The
    first block has positions from zero, the others from `blockLength`. -/
theorem magnitude_block {e n : Nat} (hlow : e = 0 ∨ blockLength ≤ n) (hhigh : n ≤ 2 * blockLength) :
    magnitude (e * blockLength + n) = (n : Rat) * 2 ^ ((e : Int) - 1074) := by
  have hB : blockLength = 0x10000000000000 := rfl
  unfold magnitude significand scale
  by_cases hsmall : n < blockLength
  · -- Only the first block has positions this low.
    have he : e = 0 := by omega
    subst he
    have hdiv : (0 * blockLength + n) / blockLength = 0 := by
      rw [Nat.zero_mul, Nat.zero_add]
      exact Nat.div_eq_of_lt hsmall
    rw [hdiv, Nat.zero_mul, Nat.zero_add, if_pos hsmall]
    norm_num
  by_cases hend : n = 2 * blockLength
  · subst hend
    have hrank : e * blockLength + 2 * blockLength = (e + 2) * blockLength := by ring
    have hdiv : (e + 2) * blockLength / blockLength = e + 2 := Nat.mul_div_cancel _ (by omega)
    rw [hrank, hdiv, if_neg (by nlinarith), Nat.mul_mod_left]
    have hexp : ((max (e + 2) 1 : Nat) : Int) - 1075 = ((e : Int) - 1074) + 1 := by omega
    rw [hexp, zpow_add_one₀ (by norm_num)]
    push_cast
    ring
  · have hdiv : (e * blockLength + n) / blockLength = e + 1 := by
      rw [Nat.add_comm, Nat.add_mul_div_right _ _ (by omega),
        Nat.div_eq_of_lt_le (m := n) (k := 1) (by omega) (by omega), Nat.add_comm]
    have hmod : (e * blockLength + n) % blockLength = n - blockLength := by
      rw [Nat.add_comm, Nat.add_mul_mod_self_right, Nat.mod_eq_sub_mod (by omega),
        Nat.mod_eq_of_lt (by omega)]
    rw [hdiv, hmod, if_neg (by nlinarith)]
    have hexp : ((max (e + 1) 1 : Nat) : Int) - 1075 = (e : Int) - 1074 := by omega
    rw [hexp, show blockLength + (n - blockLength) = n by omega]

/-- Every rank is a position of a block, and not the end of it. -/
theorem exists_block (rank : Nat) :
    ∃ e n, (e = 0 ∨ blockLength ≤ n) ∧ n < 2 * blockLength ∧ rank = e * blockLength + n
      ∧ scale rank = (e : Int) - 1074 := by
  have hB : blockLength = 0x10000000000000 := rfl
  by_cases h : rank < blockLength
  · -- The first block, of the subnormal numbers, has the scale of the second.
    refine ⟨0, rank, Or.inl rfl, by omega, by omega, ?_⟩
    rw [scale, Nat.div_eq_of_lt h]
    norm_num
  · have hmod := Nat.mod_lt rank (show 0 < blockLength by omega)
    have hdiv : 1 ≤ rank / blockLength := (Nat.one_le_div_iff (by omega)).mpr (by omega)
    have hrank := Nat.div_add_mod rank blockLength
    refine ⟨rank / blockLength - 1, blockLength + rank % blockLength, Or.inr (by omega), by omega,
      ?_, ?_⟩
    · calc rank = blockLength * (rank / blockLength) + rank % blockLength := hrank.symm
        _ = (rank / blockLength - 1 + 1) * blockLength + rank % blockLength := by
          rw [Nat.sub_add_cancel hdiv, Nat.mul_comm]
        _ = (rank / blockLength - 1) * blockLength + (blockLength + rank % blockLength) := by ring
    · rw [scale]
      omega

/-- The distance of two neighbours. -/
theorem magnitude_succ (rank : Nat) :
    magnitude (rank + 1) = magnitude rank + 2 ^ scale rank := by
  rcases exists_block rank with ⟨e, n, hlow, hhigh, hrank, hscale⟩
  have hnext : magnitude (e * blockLength + (n + 1))
      = ((n + 1 : Nat) : Rat) * 2 ^ ((e : Int) - 1074) :=
    magnitude_block (by omega) (by omega)
  rw [hscale, hrank, Nat.add_assoc, hnext, magnitude_block hlow (by omega)]
  push_cast
  ring

theorem magnitude_zero : magnitude 0 = 0 := by
  rw [magnitude, show significand 0 = 0 from rfl, Nat.cast_zero, zero_mul]

/-- Numbers are in the order of their ranks. -/
theorem magnitude_strictMono : StrictMono magnitude := by
  apply strictMono_nat_of_lt_succ
  intro rank
  rw [magnitude_succ]
  have : (0 : Rat) < 2 ^ scale rank := zpow_pos (by norm_num) _
  linarith

/-- A rank whose interval holds a rational. -/
structure Surrounds (rank : Nat) (x : Rat) : Prop where
  low : ∀ r, r + 1 = rank → (magnitude r + magnitude rank) / 2 ≤ x
  high : x ≤ (magnitude rank + magnitude (rank + 1)) / 2
  low_even : ∀ r, r + 1 = rank → (magnitude r + magnitude rank) / 2 = x → rank % 2 = 0
  high_even : x = (magnitude rank + magnitude (rank + 1)) / 2 → rank % 2 = 0

/-- Of two ranks the intervals meet at most in a midpoint, and it belongs to
    one of them only. -/
theorem not_surrounds_of_lt {m n : Nat} {x : Rat} (hm : Surrounds m x) (hn : Surrounds n x) :
    ¬m < n := by
  intro hlt
  obtain ⟨r, rfl⟩ : ∃ r, n = r + 1 := ⟨n - 1, by omega⟩
  have hmr : magnitude m ≤ magnitude r := magnitude_strictMono.monotone (by omega)
  have hsucc : magnitude (m + 1) ≤ magnitude (r + 1) := magnitude_strictMono.monotone (by omega)
  have hhigh := hm.high
  have hlow := hn.low r rfl
  -- The bounds pinch `x` to a common midpoint, so the ranks are neighbours.
  have hr : m = r := magnitude_strictMono.injective (by linarith)
  subst hr
  have hx : x = (magnitude m + magnitude (m + 1)) / 2 := by linarith
  have heven := hm.high_even hx
  have heven' := hn.low_even m rfl hx.symm
  omega

/-- A rational lies in one interval only. -/
theorem surrounds_unique {m n : Nat} {x : Rat} (hm : Surrounds m x) (hn : Surrounds n x) :
    m = n := by
  have h1 := not_surrounds_of_lt hm hn
  have h2 := not_surrounds_of_lt hn hm
  omega

/-- A decimal that reads back as the number at a rank lies in its interval. -/
theorem surrounds_of_readsBack {rank : Nat} {x : Rat} (h : readsBack rank x = true) :
    Surrounds rank x := by
  unfold readsBack at h
  -- A tie is rounded to an even rank, so only such a rank has the ends of its interval.
  by_cases heven : rank % 2 = 0
  · simp only [heven, beq_self_eq_true, if_true, Bool.and_eq_true, decide_eq_true_eq] at h
    refine ⟨?_, h.2, fun _ _ _ => heven, fun _ => heven⟩
    intro r hr
    rw [← hr] at h ⊢
    exact h.1
  · have hodd : (rank % 2 == 0) = false := by simpa using heven
    simp only [hodd, Bool.false_eq_true, if_false, Bool.and_eq_true, decide_eq_true_eq] at h
    refine ⟨?_, h.2.le, ?_, fun hx => absurd hx (ne_of_lt h.2)⟩
    · intro r hr
      rw [← hr] at h ⊢
      exact h.1.le
    · intro r hr hx
      rw [← hr] at h hx
      exact absurd hx (ne_of_lt h.1)

end Double

/-- The nearest integer, with ties to the even one. -/
theorem roundHalfEven_spec (x : Rat) :
    |x - roundHalfEven x| ≤ 1 / 2 ∧ (|x - roundHalfEven x| = 1 / 2 → roundHalfEven x % 2 = 0) := by
  have hle : (x.floor : Rat) ≤ x := Int.floor_le x
  have hlt : x < x.floor + 1 := Int.lt_floor_add_one x
  simp only [roundHalfEven]
  -- Below half, above half, and a tie with an even or an odd floor.
  split_ifs with h1 h2 h3
  · rw [abs_of_nonneg (by linarith)]
    exact ⟨by linarith, fun h => by linarith⟩
  · push_cast
    rw [abs_of_neg (by linarith)]
    exact ⟨by linarith, fun h => by linarith⟩
  · rw [abs_of_nonneg (by linarith)]
    exact ⟨by linarith, fun _ => by simpa using h3⟩
  · push_cast
    rw [abs_of_neg (by linarith)]
    refine ⟨by linarith, fun _ => ?_⟩
    simp only [beq_iff_eq] at h3
    omega

theorem roundHalfEven_bounds (x : Rat) :
    (roundHalfEven x : Rat) - 1 / 2 ≤ x ∧ x ≤ roundHalfEven x + 1 / 2 := by
  have h := abs_le.mp (roundHalfEven_spec x).1
  exact ⟨by linarith [h.1], by linarith [h.2]⟩

theorem le_roundHalfEven {n : Int} {x : Rat} (h : (n : Rat) ≤ x) : n ≤ roundHalfEven x := by
  by_contra hlt
  have h1 : (roundHalfEven x : Rat) ≤ n - 1 := by exact_mod_cast (by omega : roundHalfEven x ≤ n - 1)
  linarith [(roundHalfEven_bounds x).2]

theorem roundHalfEven_le {n : Int} {x : Rat} (h : x ≤ n) : roundHalfEven x ≤ n := by
  by_contra hlt
  have h1 : (n : Rat) + 1 ≤ roundHalfEven x := by exact_mod_cast (by omega : n + 1 ≤ roundHalfEven x)
  linarith [(roundHalfEven_bounds x).1]

namespace Double

/-- The power of two below a positive number. -/
theorem binaryExponent_spec {x : Rat} (hx : 0 < x) :
    (2 : Rat) ^ binaryExponent x ≤ x ∧ x < 2 ^ (binaryExponent x + 1) := by
  have hnum : x.num.natAbs ≠ 0 := by
    have := Rat.num_pos.mpr hx
    omega
  have hden : x.den ≠ 0 := x.den_ne_zero
  have hden_pos : (0 : Rat) < x.den := by exact_mod_cast Nat.pos_of_ne_zero hden
  have hfrac : x = (x.num.natAbs : Rat) / x.den := by
    have habs : (x.num.natAbs : Rat) = x.num := by
      have := (Rat.num_pos.mpr hx).le
      rw [Nat.cast_natAbs, abs_of_nonneg this]
    rw [habs, Rat.num_div_den]
  have hn1 : (2 : Rat) ^ x.num.natAbs.log2 ≤ x.num.natAbs := by
    exact_mod_cast Nat.log2_self_le hnum
  have hn2 : (x.num.natAbs : Rat) < 2 ^ (x.num.natAbs.log2 + 1) := by
    exact_mod_cast Nat.lt_log2_self
  have hd1 : (2 : Rat) ^ x.den.log2 ≤ x.den := by exact_mod_cast Nat.log2_self_le hden
  have hd2 : (x.den : Rat) < 2 ^ (x.den.log2 + 1) := by exact_mod_cast Nat.lt_log2_self
  -- The guess from the lengths of numerator and denominator is at most one off.
  have hguess : ∀ g : Int, g = (x.num.natAbs.log2 : Int) - x.den.log2 →
      (2 : Rat) ^ (g - 1) ≤ x ∧ x < 2 ^ (g + 1) := by
    intro g hg
    constructor
    · have hsplit : (2 : Rat) ^ (g - 1) * 2 ^ (x.den.log2 + 1) = 2 ^ x.num.natAbs.log2 := by
        rw [← zpow_natCast, ← zpow_natCast, ← zpow_add₀ (by norm_num)]
        congr 1
        push_cast
        omega
      rw [hfrac, le_div_iff₀ hden_pos]
      have hpos : (0 : Rat) < 2 ^ (g - 1) := zpow_pos (by norm_num) _
      nlinarith
    · have hsplit : (2 : Rat) ^ (g + 1) * 2 ^ x.den.log2 = 2 ^ (x.num.natAbs.log2 + 1) := by
        rw [← zpow_natCast, ← zpow_natCast, ← zpow_add₀ (by norm_num)]
        congr 1
        push_cast
        omega
      rw [hfrac, div_lt_iff₀ hden_pos]
      have hpos : (0 : Rat) < 2 ^ (g + 1) := zpow_pos (by norm_num) _
      nlinarith
  have h := hguess _ rfl
  simp only [binaryExponent]
  split_ifs with hle
  · exact ⟨hle, h.2⟩
  · refine ⟨h.1, ?_⟩
    rw [sub_add_cancel]
    exact lt_of_not_ge hle

/-- The computed rank is a position of the block of its argument. -/
theorem nearestRank_block {x : Rat} (hx : 0 < x) :
    ∃ e n : Nat, (e = 0 ∨ blockLength ≤ n) ∧ n ≤ 2 * blockLength
      ∧ nearestRank x = e * blockLength + n
      ∧ (e = 0 ∨ (blockLength : Rat) ≤ x / 2 ^ ((e : Int) - 1074))
      ∧ roundHalfEven (x / 2 ^ ((e : Int) - 1074)) = n := by
  rcases binaryExponent_spec hx with ⟨hlow, hhigh⟩
  have hB : (blockLength : Rat) = 2 ^ (52 : Int) := by norm_num [blockLength]
  obtain ⟨e, he⟩ : ∃ e : Nat, max (binaryExponent x - 52) (-1074) = (e : Int) - 1074 :=
    ⟨(max (binaryExponent x - 52) (-1074) + 1074).toNat, by omega⟩
  have hpos : (0 : Rat) < 2 ^ ((e : Int) - 1074) := zpow_pos (by norm_num) _
  have hq_nonneg : 0 ≤ x / 2 ^ ((e : Int) - 1074) := (div_pos hx hpos).le
  -- Seen in the spacing of its block the number is below the block's end.
  have hq_high : x / 2 ^ ((e : Int) - 1074) ≤ ((2 * blockLength : Nat) : Int) := by
    have hend : ((2 : Rat) ^ (52 : Int) * 2) * 2 ^ ((e : Int) - 1074)
        = 2 ^ ((e : Int) - 1074 + 53) := by
      rw [← zpow_add_one₀ (by norm_num), ← zpow_add₀ (by norm_num)]
      congr 1
      ring
    have hmono : (2 : Rat) ^ (binaryExponent x + 1) ≤ 2 ^ ((e : Int) - 1074 + 53) :=
      zpow_le_zpow_right₀ (by norm_num) (by omega)
    rw [div_le_iff₀ hpos]
    push_cast
    rw [hB]
    linarith
  have hq_low : e = 0 ∨ (blockLength : Rat) ≤ x / 2 ^ ((e : Int) - 1074) := by
    by_cases h0 : e = 0
    · exact Or.inl h0
    · have hexp : binaryExponent x = (e : Int) - 1074 + 52 := by omega
      right
      rw [le_div_iff₀ hpos, hB, ← zpow_add₀ (by norm_num), add_comm (52 : Int), ← hexp]
      exact hlow
  have hn_nonneg : 0 ≤ roundHalfEven (x / 2 ^ ((e : Int) - 1074)) :=
    le_roundHalfEven (by exact_mod_cast hq_nonneg)
  obtain ⟨n, hn⟩ := Int.eq_ofNat_of_zero_le hn_nonneg
  refine ⟨e, n, ?_, ?_, ?_, hq_low, hn⟩
  · rcases hq_low with h0 | h
    · exact Or.inl h0
    · right
      have : (blockLength : Int) ≤ roundHalfEven (x / 2 ^ ((e : Int) - 1074)) :=
        le_roundHalfEven (by rw [Int.cast_natCast]; exact h)
      omega
  · have := roundHalfEven_le hq_high
    omega
  · simp only [nearestRank, he, hn]
    have : ((e : Int) - 1074 + 1074) * (blockLength : Int) + n = ((e * blockLength + n : Nat) : Int) := by
      push_cast
      ring
    rw [this, Int.toNat_natCast]

/-- The neighbour above is at least one step of the block away. -/
theorem magnitude_block_next {e n : Nat} (hlow : e = 0 ∨ blockLength ≤ n)
    (hhigh : n ≤ 2 * blockLength) :
    (n : Rat) * 2 ^ ((e : Int) - 1074) + 2 ^ ((e : Int) - 1074)
      ≤ magnitude (e * blockLength + n + 1) := by
  have hB : blockLength = 0x10000000000000 := rfl
  rw [magnitude_succ, magnitude_block hlow hhigh]
  have hstep : (2 : Rat) ^ ((e : Int) - 1074) ≤ 2 ^ scale (e * blockLength + n) := by
    apply zpow_le_zpow_right₀ (by norm_num)
    rw [scale]
    rcases hlow with h0 | h
    · omega
    · have hblock : e + 1 ≤ (e * blockLength + n) / blockLength :=
        (Nat.le_div_iff_mul_le (by omega)).mpr (by nlinarith)
      omega
  linarith

/-- The neighbour below is one step away, except at the start of a block. -/
theorem magnitude_block_prev {e n r : Nat} (hstart : e = 0 ∨ blockLength < n)
    (hhigh : n ≤ 2 * blockLength) (hr : r + 1 = e * blockLength + n) :
    magnitude r = (n : Rat) * 2 ^ ((e : Int) - 1074) - 2 ^ ((e : Int) - 1074) := by
  have hn : 0 < n := by
    rcases hstart with h0 | h
    · rw [h0] at hr
      omega
    · omega
  have hr_eq : r = e * blockLength + (n - 1) := by omega
  rw [hr_eq, magnitude_block (by omega) (by omega), Nat.cast_sub (by omega), Nat.cast_one]
  ring

/-- The computed rank surrounds its argument. -/
theorem surrounds_nearestRank {x : Rat} (hx : 0 < x) : Surrounds (nearestRank x) x := by
  rcases nearestRank_block hx with ⟨e, n, hlow, hhigh, hrank, hq, hround⟩
  set s : Rat := 2 ^ ((e : Int) - 1074) with hs
  have hpos : (0 : Rat) < s := zpow_pos (by norm_num) _
  have hB : blockLength = 0x10000000000000 := rfl
  have hspec := roundHalfEven_spec (x / s)
  have hbounds := roundHalfEven_bounds (x / s)
  rw [hround] at hspec hbounds
  have hx_eq : x = x / s * s := (div_mul_cancel₀ x hpos.ne').symm
  have hmag : magnitude (nearestRank x) = n * s := by rw [hrank]; exact magnitude_block hlow hhigh
  have hparity : nearestRank x % 2 = n % 2 := by
    rw [hrank, hB]
    omega
  have heven : |x / s - n| = 1 / 2 → nearestRank x % 2 = 0 := by
    intro h
    have := hspec.2 (by exact_mod_cast h)
    omega
  have hnext : (n : Rat) * s + s ≤ magnitude (nearestRank x + 1) := by
    rw [hrank]
    exact magnitude_block_next hlow hhigh
  have hx_high : x ≤ n * s + s / 2 := by
    rw [hx_eq]
    push_cast at hbounds
    nlinarith [hbounds.2]
  have hx_low : n * s - s / 2 ≤ x := by
    rw [hx_eq]
    push_cast at hbounds
    nlinarith [hbounds.1]
  -- At the start of a block the number does not lie below its rank.
  have hprev : ∀ r, r + 1 = nearestRank x →
      magnitude r = n * s - s ∨ (magnitude r < n * s ∧ n * s ≤ x) := by
    intro r hr
    by_cases hstart : e = 0 ∨ blockLength < n
    · exact Or.inl (magnitude_block_prev hstart hhigh (hr.trans hrank))
    · right
      have hle : (n : Rat) ≤ x / s := by
        rcases hq with h0 | h
        · exact absurd (Or.inl h0) hstart
        · rwa [show n = blockLength by omega]
      refine ⟨by rw [← hmag]; exact magnitude_strictMono (by omega), ?_⟩
      rw [hx_eq]
      exact mul_le_mul_of_nonneg_right hle hpos.le
  refine ⟨?_, by linarith, ?_, ?_⟩
  · intro r hr
    rcases hprev r hr with h | ⟨h, h'⟩ <;> linarith
  · intro r hr hmid
    rcases hprev r hr with h | ⟨h, h'⟩
    · apply heven
      have hxs : x / s = n - 1 / 2 := by
        rw [div_eq_iff hpos.ne']
        linarith
      rw [hxs]
      norm_num
    · linarith
  · intro hmid
    apply heven
    have hxs : x / s = n + 1 / 2 := by
      rw [div_eq_iff hpos.ne']
      linarith
    rw [hxs]
    norm_num

/-- Rounding finds the surrounding rank. -/
theorem ofMagnitude_eq {rank : Nat} {x : Rat} (hx : 0 < x) (h : Surrounds rank x)
    (negative : Bool) : ofMagnitude negative x = ofRank negative rank := by
  rw [ofMagnitude, if_neg (not_le.mpr hx), surrounds_unique (surrounds_nearestRank hx) h]

theorem ofRank_ne_nan (negative : Bool) (rank : Nat) : ofRank negative rank ≠ nan := by
  rw [ofRank]
  split
  · exact Double.noConfusion
  · exact Double.noConfusion

theorem ofRat_ne_nan (x : Rat) : ofRat x ≠ nan := by
  have hmagnitude : ∀ negative y, ofMagnitude negative y ≠ nan := by
    intro negative y
    rw [ofMagnitude]
    split
    · exact ofRank_ne_nan _ _
    · exact ofRank_ne_nan _ _
  rw [ofRat]
  split
  · exact hmagnitude _ _
  · exact hmagnitude _ _

/-- Only opposite infinities have no sum. -/
theorem add_ne_nan {a b : Double} (ha : a ≠ nan) (hb : b.isFinite = true) : a.add b ≠ nan := by
  cases b with
  | nan => exact absurd hb Bool.false_ne_true
  | infinite t => exact absurd hb Bool.false_ne_true
  | finite t n =>
    cases a with
    | nan => exact absurd rfl ha
    | infinite s => exact Double.noConfusion
    | finite s m =>
      rw [add]
      split
      · exact ofRank_ne_nan _ _
      · exact ofRat_ne_nan _

theorem isFinite_neg (d : Double) : d.neg.isFinite = d.isFinite := by
  cases d <;> rfl

theorem isFinite_of_ofInt? {n : Int} {d : Double} (h : ofInt? n = some d) : d.isFinite = true := by
  rw [ofInt?] at h
  split at h
  · rw [← Option.some.inj h]
    rfl
  · exact absurd h (by simp)
  · exact absurd h (by simp)

end Double

end TableStore
