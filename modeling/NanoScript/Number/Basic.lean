/-!
Contract: the numbers of the language, IEEE 754 binary64 values held as their bit pattern.

Owns:
- the split of a pattern into a sign and a rank;
- the classes (not a number, infinite, finite, zero) and equality of values;
- the exact value of a finite number as a whole number of powers of two.

Does not own: arithmetic, and how numbers are read and written.

The *rank* of a pattern is what is left of it without its sign bit.  Ranks order the values:
of two numbers that are not negative, the one of lower rank is the lesser.
-/

namespace NanoScript

/-- A binary64 value. -/
structure Number where
  bits : UInt64
deriving DecidableEq, Inhabited

namespace Number

/-- The weight of the sign bit. -/
def signWeight : Nat :=
  Nat.pow 2 63

/-- How many ranks share one exponent. -/
def ranksPerExponent : Nat :=
  Nat.pow 2 52

/-- The rank of infinity; every finite number ranks below it, and no number ranks above. -/
def infinityRank : Nat :=
  2047 * ranksPerExponent

/-- The number with a sign and a rank. -/
def ofRank (negative : Bool) (rank : Nat) : Number :=
  ⟨UInt64.ofNat (if negative then signWeight + rank else rank)⟩

/-- Whether the sign bit is set, as it is in the negative zero. -/
def isNegative (number : Number) : Bool :=
  decide (signWeight ≤ number.bits.toNat)

/-- The pattern without its sign bit. -/
def rank (number : Number) : Nat :=
  number.bits.toNat % signWeight

def zero : Number :=
  ofRank false 0

def infinity : Number :=
  ofRank false infinityRank

/-- The quiet pattern that stands for every result that is not a number. -/
def notANumber : Number :=
  ofRank false (infinityRank + Nat.pow 2 51)

def isNotANumber (number : Number) : Bool :=
  decide (infinityRank < number.rank)

def isInfinite (number : Number) : Bool :=
  decide (number.rank = infinityRank)

def isFinite (number : Number) : Bool :=
  decide (number.rank < infinityRank)

/-- Whether a number is one of the two zeros. -/
def isZero (number : Number) : Bool :=
  decide (number.rank = 0)

/-- Equality of values: what is not a number equals nothing, not even itself, and the two
zeros are equal. -/
def equals (left right : Number) : Bool :=
  !left.isNotANumber && !right.isNotANumber &&
    (decide (left = right) || (left.isZero && right.isZero))

/-! ## The value of a finite rank -/

/-- The exponent of the smallest positive number. -/
def leastExponent : Int :=
  -1074

/-- The whole number that a finite rank multiplies a power of two by. -/
def significand (rank : Nat) : Nat :=
  if rank < ranksPerExponent then rank else ranksPerExponent + rank % ranksPerExponent

/-- The power of two that the significand of a rank is multiplied by.  The lowest ranks share
the exponent of the rank above them. -/
def exponent (rank : Nat) : Int :=
  if rank < ranksPerExponent then leastExponent
  else (rank / ranksPerExponent : Nat) - 1 + leastExponent

/-! ## Signs and ranks determine numbers -/

theorem signWeight_eq : signWeight = 0x8000000000000000 :=
  rfl

theorem toNat_bits_ofRank (negative : Bool) {rank : Nat} (small : rank < signWeight) :
    (ofRank negative rank).bits.toNat = if negative then signWeight + rank else rank := by
  unfold ofRank
  rw [signWeight_eq] at *
  simp only [UInt64.toNat_ofNat']
  split <;> omega

@[simp] theorem rank_ofRank (negative : Bool) {rank : Nat} (small : rank < signWeight) :
    (ofRank negative rank).rank = rank := by
  unfold Number.rank
  rw [toNat_bits_ofRank negative small]
  rw [signWeight_eq] at *
  split <;> omega

@[simp] theorem isNegative_ofRank (negative : Bool) {rank : Nat} (small : rank < signWeight) :
    (ofRank negative rank).isNegative = negative := by
  unfold isNegative
  rw [toNat_bits_ofRank negative small]
  cases negative <;> simp [small]

theorem rank_lt_signWeight (number : Number) : number.rank < signWeight :=
  Nat.mod_lt _ (by decide)

/-- A number is its sign and its rank. -/
theorem ofRank_isNegative_rank (number : Number) :
    ofRank number.isNegative number.rank = number := by
  have bound := number.bits.toNat_lt
  have sameBits :
      (ofRank number.isNegative number.rank).bits.toNat = number.bits.toNat := by
    rw [toNat_bits_ofRank _ number.rank_lt_signWeight]
    unfold isNegative Number.rank
    rw [signWeight_eq]
    by_cases negative : 0x8000000000000000 ≤ number.bits.toNat
    · rw [if_pos (decide_eq_true negative)]
      omega
    · rw [if_neg (by rw [decide_eq_false negative]; exact Bool.false_ne_true)]
      omega
  cases number
  exact congrArg Number.mk (UInt64.toNat_inj.1 sameBits)

end Number

end NanoScript
