import TableStore.Proofs.Double.Rounding
import TableStore.Proofs.Text.Digits

/-!
# Decimal Text Reads Back

A decimal is searched for on grids of one to seventeen digits, and the search
must not come back empty. On the last grid it cannot: the decimals there are
closer to each other than the two ends of the interval of a rank, so one of
the two neighbours of the number lies inside. `magnitude_lt_width` is the
bound on the interval and `onGrid_isSome` the argument.

In the other direction a decimal is read by rounding it, except that decimals
of extreme size are settled before. No decimal in the interval of a finite
double has such a size, so `ofDecimal_eq` needs no word about it. It speaks of
the value of the decimal only, because the text of a number moves the decimal
point about and pads with zeros.

## Theorems

* `Double.pointPosition_spec`: The number of digits before the point.
* `Double.magnitude_lt_width`: An interval is wide for its number.
* `Double.onGrid_isSome`: A fine grid has a point in the interval.
* `Double.readsBack_shortest`: The shortest decimal reads back.
* `Double.ofDecimal_eq`: A decimal in the interval of a rank is read as its
  double.
-/

namespace TableStore

namespace Double

theorem toDigits_bounds {n : Nat} (h : 0 < n) :
    10 ^ ((Nat.toDigits 10 n).length - 1) ≤ n ∧ n < 10 ^ (Nat.toDigits 10 n).length := by
  have hpos : 0 < (Nat.toDigits 10 n).length := Nat.length_toDigits_pos
  constructor
  · by_cases h1 : (Nat.toDigits 10 n).length - 1 = 0
    · rw [h1, Nat.pow_zero]
      exact h
    · by_contra hlt
      have := (Nat.length_toDigits_le_iff (by decide) (by omega)).mpr (not_le.mp hlt)
      omega
  · exact (Nat.length_toDigits_le_iff (by decide) hpos).mp (Nat.le_refl _)

theorem magnitude_one : magnitude 1 = 2 ^ (-1074 : Int) := by
  have h := magnitude_succ 0
  rw [zero_add, magnitude_zero, zero_add] at h
  exact h

theorem magnitude_pos {rank : Nat} (h : 0 < rank) : 0 < magnitude rank := by
  rw [← magnitude_zero]
  exact magnitude_strictMono h

theorem least_le_magnitude {rank : Nat} (h : 0 < rank) :
    (2 : Rat) ^ (-1074 : Int) ≤ magnitude rank := by
  rw [← magnitude_one]
  exact magnitude_strictMono.monotone h

theorem zpow_neg_lt_zpow_neg {b c : Rat} {m n : Nat} (hc : 0 < c) (h : c ^ n < b ^ m) :
    b ^ (-(m : Int)) < c ^ (-(n : Int)) := by
  rw [zpow_neg, zpow_neg, zpow_natCast, zpow_natCast]
  exact inv_strictAnti₀ (pow_pos hc n) h

-- Powers beyond 2^256 are compared through a common root.

theorem ten_zpow_le_least : (10 : Rat) ^ (-400 : Int) ≤ 2 ^ (-1074 : Int) := by
  have h : (2 : Rat) ^ 1074 < 10 ^ 400 := by
    calc (2 : Rat) ^ 1074 ≤ 2 ^ (135 * 8) := pow_le_pow_right₀ (by norm_num) (by norm_num)
      _ = (2 ^ 135) ^ 8 := pow_mul 2 135 8
      _ < (10 ^ 50) ^ 8 := pow_lt_pow_left₀ (by norm_num) (by norm_num) (by norm_num)
      _ = 10 ^ (50 * 8) := (pow_mul 10 50 8).symm
  exact (zpow_neg_lt_zpow_neg (by norm_num) h).le

theorem end_lt_ten_zpow : (2 : Rat) ^ (1024 : Int) < 10 ^ (310 : Int) := by
  have h : (2 : Rat) ^ 1024 < 10 ^ 310 := by
    calc (2 : Rat) ^ 1024 ≤ 2 ^ (205 * 5) := pow_le_pow_right₀ (by norm_num) (by norm_num)
      _ = (2 ^ 205) ^ 5 := pow_mul 2 205 5
      _ < (10 ^ 62) ^ 5 := pow_lt_pow_left₀ (by norm_num) (by norm_num) (by norm_num)
      _ = 10 ^ (62 * 5) := (pow_mul 10 62 5).symm
  exact h

theorem ten_zpow_lt_half_least : (10 : Rat) ^ (-331 : Int) < 2 ^ (-1074 : Int) / 2 := by
  have h : (2 : Rat) ^ 1075 < 10 ^ 331 := by
    calc (2 : Rat) ^ 1075 = (2 ^ 215) ^ 5 := pow_mul 2 215 5
      _ < (10 ^ 66) ^ 5 := pow_lt_pow_left₀ (by norm_num) (by norm_num) (by norm_num)
      _ = 10 ^ (66 * 5) := (pow_mul 10 66 5).symm
      _ ≤ 10 ^ 331 := pow_le_pow_right₀ (by norm_num) (by norm_num)
  have hhalf : (2 : Rat) ^ (-1074 : Int) / 2 = 2 ^ (-1075 : Int) := by
    rw [div_eq_mul_inv, ← zpow_sub_one₀ (by norm_num)]
    norm_num only
  rw [hhalf]
  exact zpow_neg_lt_zpow_neg (by norm_num) h

/-- The number of digits before the point. -/
theorem pointPosition_spec {x : Rat} (h : (10 : Rat) ^ (-400 : Int) ≤ x) :
    (10 : Rat) ^ (pointPosition x - 1) ≤ x ∧ x < 10 ^ pointPosition x := by
  set p := (10 : Rat) ^ (400 : Int) with hp
  have hpow : 0 < p := zpow_pos (by norm_num) _
  set n := (x * p).floor.toNat with hn
  -- The number is scaled to one with digits before the point, which are then counted.
  have hone : 1 ≤ x * p := by
    calc (1 : Rat) = 10 ^ (-400 : Int) * p := by
          rw [hp, ← zpow_add₀ (by norm_num), neg_add_cancel, zpow_zero]
      _ ≤ x * p := mul_le_mul_of_nonneg_right h hpow.le
  have hfloor : 1 ≤ (x * p).floor := Rat.le_floor_iff.mpr (by exact_mod_cast hone)
  have hcast : (n : Rat) = ((x * p).floor : Rat) := by
    rw [hn]
    exact_mod_cast Int.toNat_of_nonneg (by omega)
  have hle : (n : Rat) ≤ x * p := by
    rw [hcast]
    exact Rat.floor_le _
  have hlt : x * p < (n : Rat) + 1 := by
    rw [hcast]
    exact_mod_cast Rat.lt_floor_add_one (x * p)
  rcases toDigits_bounds (show 0 < n by omega) with ⟨hdlow, hdhigh⟩
  have hpos : 0 < (Nat.toDigits 10 n).length := Nat.length_toDigits_pos
  set d := (Nat.toDigits 10 n).length with hd
  have hpoint : pointPosition x = (d : Int) - 400 := by
    rw [pointPosition, ← hp]
  have hdlow' : (10 : Rat) ^ (d - 1) ≤ n := by exact_mod_cast hdlow
  have hdhigh' : (n : Rat) + 1 ≤ 10 ^ d := by exact_mod_cast hdhigh
  rw [hpoint]
  constructor
  · have hsplit : (10 : Rat) ^ ((d : Int) - 400 - 1) * p = 10 ^ (d - 1) := by
      rw [hp, ← zpow_add₀ (by norm_num), ← zpow_natCast]
      congr 1
      omega
    refine le_of_mul_le_mul_right ?_ hpow
    rw [hsplit]
    exact le_trans hdlow' hle
  · have hsplit : (10 : Rat) ^ ((d : Int) - 400) * p = 10 ^ d := by
      rw [hp, ← zpow_add₀ (by norm_num), ← zpow_natCast]
      congr 1
      omega
    refine lt_of_mul_lt_mul_right ?_ hpow.le
    rw [hsplit]
    exact lt_of_lt_of_le hlt hdhigh'

/-- An interval is wide for its number. -/
theorem magnitude_lt_width (r : Nat) :
    magnitude (r + 1) < 2 ^ 53 * ((magnitude (r + 2) - magnitude r) / 2) := by
  rcases exists_block (r + 1) with ⟨e, n, hlow, hhigh, hrank, hscale⟩
  have hB : blockLength = 0x10000000000000 := rfl
  have hnext := magnitude_succ (r + 1)
  rw [hscale] at hnext
  have hmag : magnitude (r + 1) = n * 2 ^ ((e : Int) - 1074) := by
    rw [hrank]
    exact magnitude_block hlow hhigh.le
  have hpos : (0 : Rat) < 2 ^ ((e : Int) - 1074) := zpow_pos (by norm_num) _
  rw [hnext, hmag]
  -- Within a block both neighbours are one step away. At the start of a block
  -- the one below is nearer, but there the number is the least of its block.
  by_cases hstart : e = 0 ∨ blockLength < n
  · have hn : 0 < n := by
      rcases hstart with h0 | h
      · rw [h0] at hrank
        omega
      · omega
    have hr : magnitude r = ((n : Rat) - 1) * 2 ^ ((e : Int) - 1074) := by
      rw [show r = e * blockLength + (n - 1) by omega, magnitude_block (by omega) (by omega),
        Nat.cast_sub (by omega), Nat.cast_one]
    have hn' : (n : Rat) < 2 ^ 53 := by
      have : n < 2 ^ 53 := by omega
      exact_mod_cast this
    rw [hr]
    nlinarith
  · have hn : (n : Rat) = 2 ^ 52 := by
      have : n = 2 ^ 52 := by omega
      exact_mod_cast this
    have hr : magnitude r < magnitude (r + 1) := magnitude_strictMono (by omega)
    rw [hmag, hn] at hr
    rw [hn]
    linarith

/-- What a grid gives reads back. -/
theorem readsBack_of_onGrid {rank digits : Nat} {exponent : Int}
    (h : onGrid rank exponent = some digits) :
    readsBack rank (decimalValue digits exponent) = true := by
  simp only [onGrid] at h
  split at h
  · exact absurd h (by simp)
  · rename_i hbelow _
    rw [← Option.some.inj h]
    exact hbelow
  · rename_i _ habove
    rw [← Option.some.inj h]
    exact habove
  · rename_i hbelow habove
    split_ifs at h <;> rw [← Option.some.inj h] <;> assumption

/-- A fine grid has a point in the interval. -/
theorem onGrid_isSome {r : Nat} {exponent : Int}
    (h : (10 : Rat) ^ exponent < (magnitude (r + 2) - magnitude r) / 2) :
    (onGrid (r + 1) exponent).isSome := by
  set below := (magnitude (r + 1) / (10 : Rat) ^ exponent).floor.toNat with hbelow
  have hpos : (0 : Rat) < 10 ^ exponent := zpow_pos (by norm_num) _
  have hquot : 0 ≤ magnitude (r + 1) / (10 : Rat) ^ exponent :=
    (div_pos (magnitude_pos (by omega)) hpos).le
  have hcast : (below : Rat) = ((magnitude (r + 1) / (10 : Rat) ^ exponent).floor : Rat) := by
    rw [hbelow]
    exact_mod_cast Int.toNat_of_nonneg (Int.floor_nonneg.mpr hquot)
  have hle : decimalValue below exponent ≤ magnitude (r + 1) := by
    rw [decimalValue, hcast, ← le_div_iff₀ hpos]
    exact Int.floor_le _
  have hlt : magnitude (r + 1) < decimalValue (below + 1) exponent := by
    rw [decimalValue, ← div_lt_iff₀ hpos]
    push_cast
    rw [hcast]
    exact Int.lt_floor_add_one _
  have hstep : decimalValue (below + 1) exponent = decimalValue below exponent + 10 ^ exponent := by
    simp only [decimalValue]
    push_cast
    ring
  have hr : magnitude r < magnitude (r + 1) := magnitude_strictMono (by omega)
  have hr' : magnitude (r + 1) < magnitude (r + 2) := magnitude_strictMono (by omega)
  -- If both neighbours were outside, the step would span the whole interval.
  have hfits : readsBack (r + 1) (decimalValue below exponent) = true
      ∨ readsBack (r + 1) (decimalValue (below + 1) exponent) = true := by
    have key : (magnitude r + magnitude (r + 1)) / 2 < decimalValue below exponent
        ∨ decimalValue (below + 1) exponent < (magnitude (r + 1) + magnitude (r + 2)) / 2 := by
      by_contra hnone
      rw [not_or, not_lt, not_lt] at hnone
      linarith [hnone.1, hnone.2]
    have hsub : r + 1 - 1 = r := rfl
    rcases key with hk | hk
    · left
      simp only [readsBack, hsub]
      split_ifs <;> simp only [Bool.and_eq_true, decide_eq_true_eq] <;>
        exact ⟨by linarith, by linarith⟩
    · right
      simp only [readsBack, hsub]
      split_ifs <;> simp only [Bool.and_eq_true, decide_eq_true_eq] <;>
        exact ⟨by linarith, by linarith⟩
  simp only [onGrid]
  rw [← hbelow]
  split
  · rename_i hb ha
    rw [hb, ha] at hfits
    exact absurd hfits (by simp)
  · rfl
  · rfl
  · split_ifs <;> rfl

/-- The shortest decimal reads back. -/
theorem readsBack_shortest {rank : Nat} (h : 0 < rank) :
    readsBack rank (decimalValue (shortest rank).1 (shortest rank).2) = true := by
  obtain ⟨r, rfl⟩ : ∃ r, rank = r + 1 := ⟨rank - 1, by omega⟩
  set point := pointPosition (magnitude (r + 1)) with hpoint
  have hspec := (pointPosition_spec (le_trans ten_zpow_le_least (least_le_magnitude h))).1
  -- With seventeen digits the grid is finer than the interval is wide.
  have hfine : (10 : Rat) ^ (point - 17) < (magnitude (r + 2) - magnitude r) / 2 := by
    have hwidth := magnitude_lt_width r
    have hsplit : (10 : Rat) ^ (point - 17) * 10 ^ 16 = 10 ^ (point - 1) := by
      rw [← zpow_natCast, ← zpow_add₀ (by norm_num)]
      congr 1
      push_cast
      ring
    have hpos : (0 : Rat) < 10 ^ (point - 17) := zpow_pos (by norm_num) _
    nlinarith
  have hlast := onGrid_isSome hfine
  have hsome : ((List.range 17).findSome? fun i =>
      (onGrid (r + 1) (point - (i + 1 : Nat))).map fun digits =>
        (digits, point - (i + 1 : Nat))).isSome := by
    rw [List.findSome?_isSome_iff]
    refine ⟨16, by decide, ?_⟩
    rw [Option.isSome_map]
    exact hlast
  obtain ⟨found, hfound⟩ := Option.isSome_iff_exists.mp hsome
  have hshortest : shortest (r + 1) = found := by
    simp only [shortest, ← hpoint]
    rw [hfound, Option.getD_some]
  obtain ⟨i, _, hi⟩ := List.exists_of_findSome?_eq_some hfound
  rw [Option.map_eq_some_iff] at hi
  obtain ⟨digits, hdigits, hpair⟩ := hi
  rw [hshortest, ← hpair]
  exact readsBack_of_onGrid hdigits

theorem decimalValue_bounds {digits : Nat} (h : 0 < digits) (exponent : Int) :
    (10 : Rat) ^ (((Nat.toDigits 10 digits).length : Int) + exponent - 1) ≤ decimalValue digits exponent
      ∧ decimalValue digits exponent < 10 ^ (((Nat.toDigits 10 digits).length : Int) + exponent) := by
  rcases toDigits_bounds h with ⟨hlow, hhigh⟩
  have hpos : 0 < (Nat.toDigits 10 digits).length := Nat.length_toDigits_pos
  have hexp : (0 : Rat) < 10 ^ exponent := zpow_pos (by norm_num) _
  have hlow' : (10 : Rat) ^ ((Nat.toDigits 10 digits).length - 1) ≤ digits := by exact_mod_cast hlow
  have hhigh' : (digits : Rat) < 10 ^ (Nat.toDigits 10 digits).length := by exact_mod_cast hhigh
  constructor
  · rw [show ((Nat.toDigits 10 digits).length : Int) + exponent - 1
        = (((Nat.toDigits 10 digits).length - 1 : Nat) : Int) + exponent by omega,
      zpow_add₀ (by norm_num), zpow_natCast]
    exact mul_le_mul_of_nonneg_right hlow' hexp.le
  · rw [zpow_add₀ (by norm_num), zpow_natCast]
    exact mul_lt_mul_of_pos_right hhigh' hexp

/-- The number at the rank past the last finite one. -/
theorem magnitude_end : magnitude 0x7FF0000000000000 = 2 ^ (1024 : Int) := by
  have h : magnitude (2046 * blockLength + blockLength)
      = (blockLength : Rat) * 2 ^ (((2046 : Nat) : Int) - 1074) :=
    magnitude_block (Or.inr (Nat.le_refl _)) (by omega)
  have hblock : (blockLength : Rat) = 2 ^ (52 : Int) := by
    norm_num [blockLength]
  rw [show (0x7FF0000000000000 : Nat) = 2046 * blockLength + blockLength from rfl, h, hblock,
    ← zpow_add₀ (by norm_num)]
  norm_num only

theorem pos_of_surrounds {rank : Nat} {x : Rat} (hpos : 0 < rank) (h : Surrounds rank x) :
    0 < x := by
  obtain ⟨r, rfl⟩ : ∃ r, rank = r + 1 := ⟨rank - 1, by omega⟩
  have hr : 0 ≤ magnitude r := by
    rw [← magnitude_zero]
    exact magnitude_strictMono.monotone (Nat.zero_le r)
  have := h.low r rfl
  have := magnitude_pos hpos
  linarith

theorem digits_pos_of_surrounds {rank digits : Nat} {exponent : Int} (hpos : 0 < rank)
    (h : Surrounds rank (decimalValue digits exponent)) : 0 < digits := by
  have hvalue := pos_of_surrounds hpos h
  rcases Nat.eq_zero_or_pos digits with h0 | hp
  · rw [h0, decimalValue, Nat.cast_zero, zero_mul] at hvalue
    exact absurd hvalue (lt_irrefl _)
  · exact hp

/-- A decimal in the interval of a rank is read as its double. -/
theorem ofDecimal_eq {rank digits : Nat} {exponent : Int} (hpos : 0 < rank)
    (hrank : rank < 0x7FF0000000000000) (h : Surrounds rank (decimalValue digits exponent))
    (negative : Bool) : ofDecimal negative digits exponent = finite negative ⟨rank, hrank⟩ := by
  obtain ⟨r, rfl⟩ : ∃ r, rank = r + 1 := ⟨rank - 1, by omega⟩
  have hr : 0 ≤ magnitude r := by
    rw [← magnitude_zero]
    exact magnitude_strictMono.monotone (by omega)
  have hleast := least_le_magnitude hpos
  have hlow := h.low r rfl
  have hhigh : decimalValue digits exponent ≤ 2 ^ (1024 : Int) := by
    have h1 : magnitude (r + 1) ≤ 2 ^ (1024 : Int) := by
      rw [← magnitude_end]
      exact magnitude_strictMono.monotone (by omega)
    have h2 : magnitude (r + 1 + 1) ≤ 2 ^ (1024 : Int) := by
      rw [← magnitude_end]
      exact magnitude_strictMono.monotone (by omega)
    linarith [h.high]
  have hvalue : 0 < decimalValue digits exponent := pos_of_surrounds hpos h
  have hdigits : 0 < digits := digits_pos_of_surrounds hpos h
  rcases decimalValue_bounds hdigits exponent with ⟨hblow, hbhigh⟩
  -- Decimals far out of range are not rounded at all, and this one is in range.
  have htop : ¬310 < ((Nat.toDigits 10 digits).length : Int) + exponent := by
    intro hgt
    have hmono : (10 : Rat) ^ (310 : Int)
        ≤ 10 ^ (((Nat.toDigits 10 digits).length : Int) + exponent - 1) :=
      zpow_le_zpow_right₀ (by norm_num) (by omega)
    exact absurd (lt_of_lt_of_le end_lt_ten_zpow (hmono.trans (hblow.trans hhigh))) (lt_irrefl _)
  have hbottom : ¬((Nat.toDigits 10 digits).length : Int) + exponent < -330 := by
    intro hlt
    have hmono : (10 : Rat) ^ (((Nat.toDigits 10 digits).length : Int) + exponent)
        ≤ 10 ^ (-331 : Int) := zpow_le_zpow_right₀ (by norm_num) (by omega)
    linarith [ten_zpow_lt_half_least]
  rw [ofDecimal, if_neg (by rw [beq_iff_eq]; omega)]
  simp only [if_neg htop, if_neg hbottom]
  rw [ofMagnitude_eq hvalue h, ofRank, dif_pos hrank]

end Double

end TableStore
