import Mathlib.Data.Int.Log
import Mathlib.Data.Rat.Cast.Order
import Mathlib.Data.Rat.Floor
import Mathlib.Tactic.FieldSimp
import Mathlib.Tactic.Positivity
import Mathlib.Tactic.Ring
import NanoScript.Number.Arithmetic
import NanoScript.Number.Shortest

/-!
Contract: the number nearest to a fraction depends on the value of the fraction only.

Owns:
- the binary magnitude of a fraction as the floor of its binary logarithm;
- the nearest rank under a common factor of numerator and denominator;
- the nearest rank of fractions that no finite number reaches, and of the values of finite numbers
  themselves.
-/

namespace NanoScript.Number

/-! ## Binary magnitudes -/

theorem reachesPowerOfTwo_iff {numerator denominator : Nat} (positive : 0 < numerator)
    (divisible : 0 < denominator) (power : Int) :
    reachesPowerOfTwo numerator denominator power = true ↔
      power ≤ Int.log 2 ((numerator : ℚ) / denominator) := by
  have divisor : (0 : ℚ) < denominator := by exact_mod_cast divisible
  have quotient : (0 : ℚ) < numerator / denominator := div_pos (by exact_mod_cast positive) divisor
  rw [← Int.zpow_le_iff_le_log (by decide) quotient, le_div_iff₀ divisor]
  unfold reachesPowerOfTwo
  split
  · next nonnegative =>
      obtain ⟨exponent, rfl⟩ := Int.eq_ofNat_of_zero_le nonnegative
      rw [decide_eq_true_iff, Int.toNat_natCast, zpow_natCast, mul_comm]
      exact_mod_cast Iff.rfl
  · next negative =>
      obtain ⟨exponent, same⟩ := Int.eq_ofNat_of_zero_le (Int.le_of_lt (by omega) : 0 ≤ -power)
      have power_eq : power = -(exponent : Int) := by omega
      have scale : (0 : ℚ) < 2 ^ exponent := by positivity
      rw [decide_eq_true_iff, power_eq, neg_neg, Int.toNat_natCast, zpow_neg, zpow_natCast,
        inv_mul_le_iff₀ (by exact_mod_cast scale), mul_comm]
      exact_mod_cast Iff.rfl

/-- The binary magnitude is the floor of the binary logarithm: the difference of the magnitudes of
numerator and denominator, or one less. -/
theorem binaryMagnitude_eq_log {numerator denominator : Nat} (positive : 0 < numerator)
    (divisible : 0 < denominator) :
    binaryMagnitude numerator denominator = Int.log 2 ((numerator : ℚ) / denominator) := by
  have divisor : (0 : ℚ) < denominator := by exact_mod_cast divisible
  have quotient : (0 : ℚ) < numerator / denominator := div_pos (by exact_mod_cast positive) divisor
  have atLeast : (2 : ℚ) ^ numerator.log2 ≤ numerator := by
    exact_mod_cast Nat.log2_self_le (Nat.ne_of_gt positive)
  have below : (numerator : ℚ) < 2 ^ (numerator.log2 + 1) := by exact_mod_cast Nat.lt_log2_self
  have divisorAtLeast : (2 : ℚ) ^ denominator.log2 ≤ denominator := by
    exact_mod_cast Nat.log2_self_le (Nat.ne_of_gt divisible)
  have divisorBelow : (denominator : ℚ) < 2 ^ (denominator.log2 + 1) := by
    exact_mod_cast Nat.lt_log2_self
  have lower : (numerator.log2 : Int) - denominator.log2 - 1 ≤
      Int.log 2 ((numerator : ℚ) / denominator) := by
    rw [← Int.zpow_le_iff_le_log (by decide) quotient, le_div_iff₀ divisor]
    have factor : ((2 : ℕ) : ℚ) ^ ((numerator.log2 : Int) - denominator.log2 - 1) =
        2 ^ numerator.log2 / 2 ^ (denominator.log2 + 1) := by
      rw [sub_sub, zpow_sub₀ (by norm_num)]
      norm_cast
    rw [factor, div_mul_eq_mul_div, div_le_iff₀ (by positivity)]
    exact mul_le_mul atLeast divisorBelow.le divisor.le (by positivity)
  have upper : Int.log 2 ((numerator : ℚ) / denominator) <
      (numerator.log2 : Int) - denominator.log2 + 1 := by
    rw [← Int.lt_zpow_iff_log_lt (by decide) quotient, div_lt_iff₀ divisor]
    have factor : ((2 : ℕ) : ℚ) ^ ((numerator.log2 : Int) - denominator.log2 + 1) =
        2 ^ (numerator.log2 + 1) / 2 ^ denominator.log2 := by
      rw [sub_add_eq_add_sub, zpow_sub₀ (by norm_num)]
      norm_cast
    rw [factor, div_mul_eq_mul_div, lt_div_iff₀ (by positivity)]
    exact mul_lt_mul below divisorAtLeast (by positivity) (by positivity)
  have reaches := reachesPowerOfTwo_iff positive divisible
    ((numerator.log2 : Int) - denominator.log2)
  unfold binaryMagnitude
  dsimp only
  split
  · next found =>
      have atEstimate := reaches.1 found
      omega
  · next missed =>
      have notAtEstimate := mt reaches.2 missed
      omega

/-! ## Common factors -/

theorem roundedQuotient_scale {factor : Nat} (positive : 0 < factor)
    (numerator denominator : Nat) :
    roundedQuotient (factor * numerator) (factor * denominator) =
      roundedQuotient numerator denominator := by
  unfold roundedQuotient
  dsimp only
  have twice : 2 * (factor * (numerator % denominator)) =
      factor * (2 * (numerator % denominator)) := by ring
  rw [Nat.mul_div_mul_left _ _ positive, Nat.mul_mod_mul_left, twice]
  simp only [Nat.mul_lt_mul_left positive]

theorem roundedUnits_scale {factor : Nat} (positive : 0 < factor) (numerator denominator : Nat)
    (power : Int) :
    roundedUnits (factor * numerator) (factor * denominator) power =
      roundedUnits numerator denominator power := by
  unfold roundedUnits
  rw [Nat.mul_assoc, Nat.mul_assoc, roundedQuotient_scale positive,
    roundedQuotient_scale positive]

/-- A factor that numerator and denominator have in common does not change the nearest rank. -/
theorem nearestRank_scale {factor numerator denominator : Nat} (positive : 0 < factor)
    (divisible : 0 < denominator) :
    nearestRank (factor * numerator) (factor * denominator) =
      nearestRank numerator denominator := by
  unfold nearestRank
  by_cases zero : numerator = 0
  · rw [zero, Nat.mul_zero, if_pos rfl, if_pos rfl]
  · have numeratorPositive := Nat.pos_of_ne_zero zero
    have scaled : factor * numerator ≠ 0 :=
      Nat.ne_of_gt (Nat.mul_pos positive numeratorPositive)
    have magnitudes : binaryMagnitude (factor * numerator) (factor * denominator) =
        binaryMagnitude numerator denominator := by
      have cast : (factor : ℚ) ≠ 0 := by exact_mod_cast Nat.ne_of_gt positive
      rw [binaryMagnitude_eq_log numeratorPositive divisible,
        binaryMagnitude_eq_log (Nat.mul_pos positive numeratorPositive)
          (Nat.mul_pos positive divisible), Nat.cast_mul, Nat.cast_mul, mul_div_mul_left _ _ cast]
    rw [if_neg zero, if_neg scaled, magnitudes]
    dsimp only
    rw [roundedUnits_scale positive]

/-! ## Fractions beyond all finite numbers -/

theorem le_roundedQuotient {lower numerator denominator : Nat} (divisible : 0 < denominator)
    (reaches : lower * denominator ≤ numerator) :
    lower ≤ roundedQuotient numerator denominator := by
  have atMost : lower ≤ numerator / denominator := (Nat.le_div_iff_mul_le divisible).2 reaches
  unfold roundedQuotient
  dsimp only
  split
  · exact atMost
  · split <;> omega

theorem reachesPowerOfTwo_natCast (numerator denominator exponent : Nat) :
    reachesPowerOfTwo numerator denominator exponent =
      decide (denominator * 2 ^ exponent ≤ numerator) :=
  if_pos (Int.natCast_nonneg exponent)

/-- A fraction that is no less than a power of two beyond all finite numbers rounds to
infinity. -/
theorem nearestRank_of_large {numerator denominator : Nat} (exponent : Nat)
    (divisible : 0 < denominator) (beyond : 1024 ≤ exponent)
    (large : denominator * 2 ^ exponent ≤ numerator) :
    nearestRank numerator denominator = infinityRank := by
  have positive : 0 < numerator :=
    Nat.lt_of_lt_of_le (Nat.mul_pos divisible (Nat.two_pow_pos exponent)) large
  have magnitude : (exponent : Int) ≤ binaryMagnitude numerator denominator := by
    rw [binaryMagnitude_eq_log positive divisible, ← reachesPowerOfTwo_iff positive divisible,
      reachesPowerOfTwo_natCast]
    exact decide_eq_true large
  obtain ⟨excess, excess_eq⟩ :=
    Int.eq_ofNat_of_zero_le (by omega : 0 ≤ binaryMagnitude numerator denominator - 1024)
  have magnitude_eq : binaryMagnitude numerator denominator = (excess + 972 + 52 : Nat) := by
    omega
  have reached : denominator * 2 ^ (excess + 972 + 52) ≤ numerator := by
    have atMagnitude := (reachesPowerOfTwo_iff positive divisible (excess + 972 + 52 : Nat)).2
      (by rw [← binaryMagnitude_eq_log positive divisible, magnitude_eq])
    rw [reachesPowerOfTwo_natCast] at atMagnitude
    exact of_decide_eq_true atMagnitude
  have units : 2 ^ 52 ≤ roundedQuotient numerator (denominator * 2 ^ (excess + 972)) := by
    apply le_roundedQuotient (Nat.mul_pos divisible (Nat.two_pow_pos _))
    calc 2 ^ 52 * (denominator * 2 ^ (excess + 972))
        = denominator * 2 ^ (excess + 972 + 52) := by
          rw [Nat.pow_add 2 (excess + 972) 52, Nat.mul_left_comm, Nat.mul_comm (2 ^ 52)]
      _ ≤ numerator := reached
  have power_eq : max (binaryMagnitude numerator denominator - 52) leastExponent =
      ((excess + 972 : Nat) : Int) := by
    unfold leastExponent
    omega
  unfold nearestRank
  dsimp only
  rw [if_neg (Nat.ne_of_gt positive), power_eq, roundedUnits, if_pos (Int.natCast_nonneg _),
    Int.toNat_natCast]
  apply Nat.min_eq_right
  unfold infinityRank ranksPerExponent leastExponent
  simp only [Nat.pow_eq]
  omega

theorem nearestRank_le (numerator denominator : Nat) :
    nearestRank numerator denominator ≤ infinityRank := by
  unfold nearestRank
  split
  · exact Nat.zero_le _
  · exact Nat.min_le_right _ _

/-! ## The values of finite numbers -/

theorem roundedQuotient_of_multiple (units : Nat) {denominator : Nat}
    (divisible : 0 < denominator) : roundedQuotient (units * denominator) denominator = units := by
  unfold roundedQuotient
  dsimp only
  rw [Nat.mul_mod_left, Nat.mul_zero, if_pos divisible, Nat.mul_div_cancel _ divisible]

/-- Fewer than `2 ^ 53` units of a power of two stay below the power 53 steps above it. -/
theorem log_units_lt {units : Nat} (positive : 0 < units) (fits : units < 2 * ranksPerExponent)
    (power : Int) : Int.log 2 ((units : ℚ) * 2 ^ power) < 53 + power := by
  have unitsPositive : (0 : ℚ) < units := by exact_mod_cast positive
  have scale : (0 : ℚ) < 2 ^ power := zpow_pos (by norm_num) power
  rw [← Int.lt_zpow_iff_log_lt (by decide) (mul_pos unitsPositive scale), Nat.cast_ofNat,
    zpow_add₀ (by norm_num)]
  have bound : (units : ℚ) < 2 ^ (53 : Int) := by
    have below : (units : ℚ) < (2 * ranksPerExponent : Nat) := by exact_mod_cast fits
    norm_num [ranksPerExponent] at below ⊢
    exact below
  exact mul_lt_mul_of_pos_right bound scale

/-- At least `2 ^ 52` units of a power of two reach the power 52 steps above it. -/
theorem le_log_units {units : Nat} (reaches : ranksPerExponent ≤ units) (power : Int) :
    52 + power ≤ Int.log 2 ((units : ℚ) * 2 ^ power) := by
  have bound : (2 : ℚ) ^ (52 : Int) ≤ units := by
    have above : ((ranksPerExponent : Nat) : ℚ) ≤ units := by exact_mod_cast reaches
    norm_num [ranksPerExponent] at above ⊢
    exact above
  have unitsPositive : (0 : ℚ) < units := lt_of_lt_of_le (by positivity) bound
  have scale : (0 : ℚ) < 2 ^ power := zpow_pos (by norm_num) power
  rw [← Int.zpow_le_iff_le_log (by decide) (mul_pos unitsPositive scale), Nat.cast_ofNat,
    zpow_add₀ (by norm_num)]
  exact mul_le_mul_of_nonneg_right bound scale.le

/-- The power of two that a number is rounded to is the one that its value is written with, if the
units fit the significand of a number and fill it or have the least power. -/
theorem power_of_fits {units numerator denominator : Nat} {power : Int} (positive : 0 < units)
    (fits : units < 2 * ranksPerExponent) (least : leastExponent ≤ power)
    (normal : ranksPerExponent ≤ units ∨ power = leastExponent)
    (numeratorPositive : 0 < numerator) (divisible : 0 < denominator)
    (same : (numerator : ℚ) / denominator = units * (2 : ℚ) ^ power) :
    max (binaryMagnitude numerator denominator - 52) leastExponent = power := by
  have upper := log_units_lt positive fits power
  rw [binaryMagnitude_eq_log numeratorPositive divisible, same]
  rcases normal with reaches | isLeast
  · have lower := le_log_units reaches power
    omega
  · omega

/-- Whole numbers of a power of two are rounded to themselves, if the power is the one that the
nearest number would be chosen with. -/
theorem rankOfUnits_of_fits {units : Nat} {power : Int} (positive : 0 < units)
    (fits : units < 2 * ranksPerExponent) (least : leastExponent ≤ power)
    (normal : ranksPerExponent ≤ units ∨ power = leastExponent) :
    rankOfUnits units power =
      min ((power - leastExponent).toNat * ranksPerExponent + units) infinityRank := by
  unfold rankOfUnits
  split
  · next nonnegative =>
      obtain ⟨exponent, rfl⟩ := Int.eq_ofNat_of_zero_le nonnegative
      have scaledPositive : 0 < units * 2 ^ exponent :=
        Nat.mul_pos positive (Nat.two_pow_pos exponent)
      have chosen := power_of_fits positive fits least normal scaledPositive Nat.one_pos
        (by push_cast; simp)
      unfold nearestRank
      dsimp only
      rw [Int.toNat_natCast, Nat.pow_eq, if_neg (Nat.ne_of_gt scaledPositive), chosen,
        roundedUnits, if_pos nonnegative, Int.toNat_natCast, Nat.pow_eq, Nat.one_mul,
        roundedQuotient_of_multiple _ (Nat.two_pow_pos exponent)]
  · next negative =>
      obtain ⟨exponent, same⟩ := Int.eq_ofNat_of_zero_le (Int.le_of_lt (by omega) : 0 ≤ -power)
      have power_eq : power = -(exponent : Int) := by omega
      have chosen := power_of_fits positive fits least normal positive (Nat.two_pow_pos exponent)
        (by rw [power_eq, zpow_neg, zpow_natCast]; push_cast; exact div_eq_mul_inv _ _)
      unfold nearestRank
      dsimp only
      rw [same, Int.toNat_natCast, Nat.pow_eq, if_neg (Nat.ne_of_gt positive), chosen,
        roundedUnits, if_neg negative, same, Int.toNat_natCast, Nat.pow_eq,
        roundedQuotient_of_multiple _ (Nat.two_pow_pos exponent)]

/-- A finite number is the nearest to its own value. -/
theorem rankOfUnits_significand {rank : Nat} (positive : 0 < rank) (finite : rank < infinityRank) :
    rankOfUnits (significand rank) (exponent rank) = rank := by
  by_cases subnormal : rank < ranksPerExponent
  · have sameUnits : significand rank = rank := if_pos subnormal
    have samePower : exponent rank = leastExponent := if_pos subnormal
    rw [sameUnits, samePower, rankOfUnits_of_fits positive (by omega) le_rfl (.inr rfl)]
    rw [Int.sub_self, Int.toNat_zero, Nat.zero_mul, Nat.zero_add]
    exact Nat.min_eq_left finite.le
  · have sameUnits : significand rank = ranksPerExponent + rank % ranksPerExponent :=
      if_neg subnormal
    have samePower : exponent rank = (rank / ranksPerExponent : Nat) - 1 + leastExponent :=
      if_neg subnormal
    have rest := Nat.mod_lt rank (by decide : 0 < ranksPerExponent)
    have split := Nat.div_add_mod rank ranksPerExponent
    have quotientPositive : 1 ≤ rank / ranksPerExponent :=
      (Nat.le_div_iff_mul_le (by decide)).2 (by omega)
    rw [rankOfUnits_of_fits (by omega) (by omega) (by omega) (.inl (by omega))]
    have total : (exponent rank - leastExponent).toNat * ranksPerExponent + significand rank =
        rank := by
      have steps : (exponent rank - leastExponent).toNat = rank / ranksPerExponent - 1 := by omega
      rw [steps, sameUnits, Nat.sub_mul, Nat.one_mul, Nat.mul_comm]
      have reaches := Nat.mul_le_mul_left ranksPerExponent quotientPositive
      omega
    rw [total]
    exact Nat.min_eq_left finite.le

end NanoScript.Number
