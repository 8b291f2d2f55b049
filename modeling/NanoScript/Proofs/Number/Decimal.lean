import NanoScript.Proofs.Number.Rounding

/-!
Contract: the shortest decimal fraction of a finite number reads back as that number.

Owns:
- counts of digits;
- the rank of a decimal fraction whose zeros at the end are moved into the exponent;
- the rank of the exact decimal fraction of a finite number;
- the rank of what the search for the shortest one returns.

The cut-offs for exponents out of reach never decide between two forms of one finite value: on the
side of the great numbers no finite value is cut off, and on the side of the small ones the count of
digits and the exponent move together.
-/

namespace NanoScript.Decimal

open Number

/-! ## Counts of digits -/

theorem digitCount_of_ten_le {whole : Nat} (long : 10 ≤ whole) :
    digitCount whole = digitCount (whole / 10) + 1 := by
  unfold digitCount
  rw [Nat.toDigits_of_base_le (by decide) long, List.length_append, List.length_singleton]

theorem lt_ten_pow_digitCount (whole : Nat) : whole < 10 ^ digitCount whole :=
  (Nat.length_toDigits_le_iff (by decide) Nat.length_toDigits_pos).1 le_rfl

/-! ## Ranks -/

theorem rank_le_infinityRank (decimal : Decimal) : decimal.rank ≤ infinityRank := by
  unfold rank
  split
  · exact Nat.zero_le _
  · split
    · split
      · exact le_rfl
      · exact nearestRank_le _ _
    · split
      · exact Nat.zero_le _
      · exact nearestRank_le _ _

/-! ## Zeros at the end of the digits -/

theorem two_pow_le_ten_pow (exponent : Nat) : 2 ^ (3 * exponent) ≤ 10 ^ exponent := by
  rw [Nat.pow_mul]
  exact Nat.pow_le_pow_left (by decide) exponent

theorem rank_natCast (digits : Nat) {exponent : Nat} (near : exponent < lowestMagnitude) :
    rank ⟨digits, exponent⟩ = nearestRank (digits * 10 ^ exponent) 1 := by
  unfold rank
  dsimp only
  rw [if_pos (Int.natCast_nonneg exponent), Int.toNat_natCast, if_neg (Nat.not_le.2 near)]
  split
  · next zero =>
      rw [zero, Nat.zero_mul]
      rfl
  · rfl

theorem rank_neg_natCast (digits places : Nat) :
    rank ⟨digits, -((places + 1 : Nat) : Int)⟩ =
      if digitCount digits + lowestMagnitude ≤ places + 1 then 0
      else nearestRank digits (10 ^ (places + 1)) := by
  have negative : ¬ (0 : Int) ≤ -((places + 1 : Nat) : Int) := by omega
  unfold rank
  dsimp only
  rw [if_neg negative, neg_neg, Int.toNat_natCast]
  split
  · next zero =>
      rw [zero]
      split
      · rfl
      · rfl
  · rfl

/-- Exponents out of reach are those of infinity. -/
theorem rank_of_far {digits exponent : Nat} (positive : 0 < digits)
    (far : lowestMagnitude ≤ exponent) : rank ⟨digits, exponent⟩ = infinityRank := by
  unfold rank
  dsimp only
  rw [if_neg (Nat.ne_of_gt positive), if_pos (Int.natCast_nonneg exponent), Int.toNat_natCast,
    if_pos far]

/-- The exponent of a finite value is within reach, and so is the next one. -/
theorem lt_lowestMagnitude_of_finite {digits exponent : Nat} (positive : 0 < digits)
    (finite : rank ⟨10 * digits, exponent⟩ < infinityRank) : exponent + 1 < lowestMagnitude := by
  by_contra far
  by_cases last : exponent < lowestMagnitude
  · have large : 1 * 2 ^ (3 * (exponent + 1)) ≤ 10 * digits * 10 ^ exponent :=
      calc 1 * 2 ^ (3 * (exponent + 1)) ≤ 10 ^ (exponent + 1) := by
            rw [Nat.one_mul]
            exact two_pow_le_ten_pow (exponent + 1)
        _ = 10 * 1 * 10 ^ exponent := by ring
        _ ≤ 10 * digits * 10 ^ exponent := by gcongr; exact positive
    have beyond : 1024 ≤ 3 * (exponent + 1) := by
      unfold lowestMagnitude at *
      omega
    rw [rank_natCast _ last, nearestRank_of_large _ Nat.one_pos beyond large] at finite
    exact Nat.lt_irrefl _ finite
  · rw [rank_of_far (by omega) (Nat.not_lt.1 last)] at finite
    exact Nat.lt_irrefl _ finite

/-- A zero at the end of the digits may be moved into an exponent that is not negative. -/
theorem rank_dropZero_natCast {digits exponent : Nat} (positive : 0 < digits)
    (finite : rank ⟨10 * digits, exponent⟩ < infinityRank) :
    rank ⟨digits, (exponent + 1 : Nat)⟩ = rank ⟨10 * digits, exponent⟩ := by
  have near := lt_lowestMagnitude_of_finite positive finite
  rw [rank_natCast digits near, rank_natCast _ (by omega)]
  congr 1
  ring

/-- A zero at the end of the digits may be moved into a negative exponent. -/
theorem rank_dropZero_neg {digits : Nat} (positive : 0 < digits) (places : Nat) :
    rank ⟨digits, -(places : Int)⟩ = rank ⟨10 * digits, -((places + 1 : Nat) : Int)⟩ := by
  have count : digitCount (10 * digits) = digitCount digits + 1 := by
    rw [digitCount_of_ten_le (by omega), Nat.mul_div_cancel_left _ (by decide)]
  rw [rank_neg_natCast, count]
  cases places with
  | zero =>
      have whole := rank_natCast digits (by decide : 0 < lowestMagnitude)
      push_cast at whole
      rw [if_neg (by unfold lowestMagnitude; omega), Nat.cast_zero, neg_zero, whole, Nat.mul_one]
      exact (nearestRank_scale (by decide : 0 < 10) Nat.one_pos).symm
  | succ places =>
      rw [rank_neg_natCast, Nat.pow_succ 10 (places + 1), Nat.mul_comm _ 10,
        nearestRank_scale (by decide) (Nat.pow_pos (by decide))]
      congr 1
      simp only [eq_iff_iff]
      omega

/-- A zero at the end of the digits may be moved into the exponent. -/
theorem rank_dropZero {digits : Nat} {exponent : Int} (positive : 0 < digits)
    (finite : rank ⟨10 * digits, exponent⟩ < infinityRank) :
    rank ⟨digits, exponent + 1⟩ = rank ⟨10 * digits, exponent⟩ := by
  by_cases nonnegative : 0 ≤ exponent
  · obtain ⟨whole, rfl⟩ := Int.eq_ofNat_of_zero_le nonnegative
    exact rank_dropZero_natCast positive finite
  · obtain ⟨places, places_eq⟩ := Int.eq_ofNat_of_zero_le (by omega : 0 ≤ -exponent - 1)
    rw [show exponent = -((places + 1 : Nat) : Int) by omega,
      show -((places + 1 : Nat) : Int) + 1 = -(places : Int) by omega]
    exact rank_dropZero_neg positive places

theorem rank_dropZeros (fuel : Nat) {decimal : Decimal} (finite : decimal.rank < infinityRank) :
    (dropZeros fuel decimal).rank = decimal.rank := by
  induction fuel generalizing decimal with
  | zero => rfl
  | succ fuel inductionHypothesis =>
      unfold dropZeros
      split
      · next ends =>
          have split : 10 * (decimal.digits / 10) = decimal.digits := by omega
          have shorterFinite :
              rank ⟨10 * (decimal.digits / 10), decimal.exponent⟩ < infinityRank := by
            rw [split]
            exact finite
          have moved := rank_dropZero (by omega) shorterFinite
          rw [split] at moved
          have same : (⟨decimal.digits, decimal.exponent⟩ : Decimal).rank = decimal.rank := rfl
          rw [inductionHypothesis (by rw [moved]; exact finite), moved]
      · rfl

/-- A decimal fraction below infinity keeps its rank in its form without zeros at the end. -/
theorem rank_normalized {decimal : Decimal} (finite : decimal.rank < infinityRank) :
    decimal.normalized.rank = decimal.rank :=
  rank_dropZeros _ finite

/-- Zeros may be taken back out of an exponent that is not negative. -/
theorem rank_written_out {digits exponent : Nat}
    (finite : rank ⟨digits, exponent⟩ < infinityRank) (positive : 0 < digits) :
    rank ⟨digits * 10 ^ exponent, 0⟩ = rank ⟨digits, exponent⟩ := by
  have near : exponent < lowestMagnitude := by
    by_contra far
    rw [rank_of_far positive (Nat.not_lt.1 far)] at finite
    exact Nat.lt_irrefl _ finite
  rw [rank_natCast _ near]
  exact (rank_natCast _ (by decide : 0 < lowestMagnitude)).trans (by rw [Nat.pow_zero, Nat.mul_one])

end NanoScript.Decimal

namespace NanoScript.Number

open Decimal

/-! ## The exact decimal fraction -/

theorem exponent_ge (rank : Nat) : leastExponent ≤ exponent rank := by
  unfold exponent
  split
  · exact le_rfl
  · next normal =>
      have quotientPositive : 1 ≤ rank / ranksPerExponent :=
        (Nat.le_div_iff_mul_le (by decide)).2 (by omega)
      omega

theorem significand_pos {rank : Nat} (positive : 0 < rank) : 0 < significand rank := by
  unfold significand
  split
  · exact positive
  · exact Nat.add_pos_left (by decide) _

/-- The exact digits of a value with a negative exponent are so many that the exponent is within
reach. -/
theorem lt_digitCount_of_places_le {units places : Nat} (positive : 0 < units)
    (places_le : places ≤ 1074) :
    places < digitCount (units * 5 ^ places) + lowestMagnitude := by
  by_contra far
  generalize count_eq : digitCount (units * 5 ^ places) = count at far
  have bound : 5 ^ places < 10 ^ count := by
    rw [← count_eq]
    exact Nat.lt_of_le_of_lt (Nat.le_mul_of_pos_left _ positive) (lt_ten_pow_digitCount _)
  have scaled : 5 ^ places * 10 ^ lowestMagnitude < 5 ^ places * 2 ^ places :=
    calc 5 ^ places * 10 ^ lowestMagnitude
        < 10 ^ count * 10 ^ lowestMagnitude :=
          Nat.mul_lt_mul_of_pos_right bound (Nat.pow_pos (by decide))
      _ = 10 ^ (count + lowestMagnitude) := by rw [Nat.pow_add]
      _ ≤ 10 ^ places := Nat.pow_le_pow_right (by decide) (Nat.not_lt.1 far)
      _ = 5 ^ places * 2 ^ places := by rw [← Nat.mul_pow]
  have short : 2 ^ places ≤ 2 ^ (3 * lowestMagnitude) :=
    Nat.pow_le_pow_right (by decide) (by unfold lowestMagnitude; omega)
  have contradictory := Nat.lt_of_mul_lt_mul_left scaled
  have within := two_pow_le_ten_pow lowestMagnitude
  omega

theorem rank_exactDecimal {rank : Nat} (positive : 0 < rank) (finite : rank < infinityRank) :
    (exactDecimal rank).rank = rank := by
  have units := rankOfUnits_significand positive finite
  unfold rankOfUnits at units
  unfold exactDecimal
  split
  · next nonnegative =>
      rw [if_pos nonnegative] at units
      refine Eq.trans ?_ units
      exact (rank_natCast _ (by decide : 0 < lowestMagnitude)).trans
        (by rw [Nat.pow_zero, Nat.mul_one])
  · next negative =>
      rw [if_neg negative] at units
      obtain ⟨places, places_eq⟩ :=
        Int.eq_ofNat_of_zero_le (by omega : 0 ≤ -exponent rank - 1)
      have exponent_eq : exponent rank = -((places + 1 : Nat) : Int) := by omega
      have places_le : places + 1 ≤ 1074 := by
        have least := exponent_ge rank
        unfold leastExponent at least
        omega
      rw [exponent_eq, neg_neg, Int.toNat_natCast, Nat.pow_eq] at units
      rw [exponent_eq, neg_neg, Int.toNat_natCast, Nat.pow_eq, rank_neg_natCast]
      have near := lt_digitCount_of_places_le (significand_pos positive) places_le
      rw [if_neg (Nat.not_le.2 near), Nat.mul_comm, show 10 ^ (places + 1) = 5 ^ (places + 1) * 2 ^ (places + 1) by
        rw [← Nat.mul_pow], nearestRank_scale (Nat.pow_pos (by decide)) (Nat.two_pow_pos _)]
      exact units

/-! ## The shortest decimal fraction -/

theorem nearerNeighbour_mem (tie : Tie) (twiceRest spacing : Nat) (below above : Decimal) :
    nearerNeighbour tie twiceRest spacing below above = below ∨
      nearerNeighbour tie twiceRest spacing below above = above := by
  unfold nearerNeighbour
  split
  · exact .inl rfl
  · split
    · exact .inr rfl
    · cases tie with
      | upward => exact .inr rfl
      | toEven =>
          dsimp only
          split
          · exact .inl rfl
          · exact .inr rfl

/-- What represents a rank reads back as it. -/
theorem rank_of_representative {tie : Tie} {rank count : Nat} {decimal : Decimal}
    (found : representative? tie rank count = some decimal) : decimal.rank = rank := by
  unfold representative? at found
  dsimp only at found
  split at found
  · next belowReads aboveReads =>
      rcases nearerNeighbour_mem tie _ _ _ _ with same | same
      · rw [same] at found
        cases found
        exact of_decide_eq_true belowReads
      · rw [same] at found
        cases found
        exact of_decide_eq_true aboveReads
  · next belowReads _ =>
      cases found
      exact of_decide_eq_true belowReads
  · next _ aboveReads =>
      cases found
      exact of_decide_eq_true aboveReads
  · cases found

/-- The shortest decimal fraction of a finite rank reads back as it. -/
theorem rank_shortestDecimal (tie : Tie) {rank : Nat} (positive : 0 < rank)
    (finite : rank < infinityRank) : (shortestDecimal tie rank).rank = rank := by
  unfold shortestDecimal
  dsimp only
  have reads : (((List.range 17).findSome? fun index =>
      representative? tie rank (index + 1)).getD (exactDecimal rank)).rank = rank := by
    cases search : (List.range 17).findSome? fun index => representative? tie rank (index + 1) with
    | none => exact rank_exactDecimal positive finite
    | some decimal =>
        obtain ⟨index, _, found⟩ := List.exists_of_findSome?_eq_some search
        exact rank_of_representative found
  rw [rank_normalized (by rw [reads]; exact finite), reads]

theorem digits_shortestDecimal_pos (tie : Tie) {rank : Nat} (positive : 0 < rank)
    (finite : rank < infinityRank) : 0 < (shortestDecimal tie rank).digits := by
  apply Nat.pos_of_ne_zero
  intro zero
  have reads := rank_shortestDecimal tie positive finite
  unfold Decimal.rank at reads
  rw [if_pos zero] at reads
  omega

end NanoScript.Number
