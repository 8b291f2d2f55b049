import NanoScript.Number.Text
import NanoScript.Proofs.Number.Decimal

/-!
Contract: the plain form of a finite number reads back as that number.

Owns:
- plain numerals, digits with an optional fraction, and how they are read;
- the plain form of a finite number that is not negative, which is a plain numeral for that number.
-/

namespace NanoScript

namespace Decimal

/-- Digits, at least one, with an optional fraction of at least one digit. -/
inductive IsPlain : List Char → Prop
  | whole {figures : List Char} (nonempty : figures ≠ [])
      (areDigits : ∀ c ∈ figures, c.isDigit = true) : IsPlain figures
  | fraction {figures places : List Char} (nonempty : figures ≠ []) (placesNonempty : places ≠ [])
      (areDigits : ∀ c ∈ figures, c.isDigit = true)
      (placesAreDigits : ∀ c ∈ places, c.isDigit = true) : IsPlain (figures ++ '.' :: places)

/-- A plain numeral starts with a digit. -/
theorem IsPlain.exists_cons {text : List Char} (isPlain : IsPlain text) :
    ∃ first rest, text = first :: rest ∧ first.isDigit = true := by
  cases isPlain with
  | whole nonempty areDigits =>
      obtain ⟨first, rest, rfl⟩ := List.exists_cons_of_ne_nil nonempty
      exact ⟨first, rest, rfl, areDigits first List.mem_cons_self⟩
  | fraction nonempty _ areDigits _ =>
      obtain ⟨first, rest, rfl⟩ := List.exists_cons_of_ne_nil nonempty
      exact ⟨first, _, rfl, areDigits first List.mem_cons_self⟩

/-! ## How plain numerals are read -/

theorem takeWhile_isDigit {figures : List Char} (areDigits : ∀ c ∈ figures, c.isDigit = true)
    (rest : List Char) :
    (figures ++ rest).takeWhile Char.isDigit = figures ++ rest.takeWhile Char.isDigit :=
  List.takeWhile_append_of_pos areDigits

theorem dropWhile_isDigit {figures : List Char} (areDigits : ∀ c ∈ figures, c.isDigit = true)
    (rest : List Char) :
    (figures ++ rest).dropWhile Char.isDigit = rest.dropWhile Char.isDigit :=
  List.dropWhile_append_of_pos areDigits

theorem read?_whole {figures : List Char} (nonempty : figures ≠ [])
    (areDigits : ∀ c ∈ figures, c.isDigit = true) :
    read? figures = some ⟨ofDigits figures, 0⟩ := by
  have taken := takeWhile_isDigit areDigits []
  have dropped := dropWhile_isDigit areDigits []
  rw [List.append_nil, List.takeWhile_nil, List.append_nil] at taken
  rw [List.append_nil, List.dropWhile_nil] at dropped
  unfold read?
  simp [taken, dropped, nonempty, readExponent?]

theorem read?_fraction {figures places : List Char} (nonempty : figures ≠ [])
    (areDigits : ∀ c ∈ figures, c.isDigit = true)
    (placesAreDigits : ∀ c ∈ places, c.isDigit = true) :
    read? (figures ++ '.' :: places) =
      some ⟨ofDigits (figures ++ places), -(places.length : Int)⟩ := by
  have notDigit : Char.isDigit '.' = false := by decide
  have taken := takeWhile_isDigit areDigits ('.' :: places)
  have dropped := dropWhile_isDigit areDigits ('.' :: places)
  rw [List.takeWhile_cons_of_neg (by rw [notDigit]; decide), List.append_nil] at taken
  rw [List.dropWhile_cons_of_neg (by rw [notDigit]; decide)] at dropped
  have placesTaken := takeWhile_isDigit placesAreDigits []
  have placesDropped := dropWhile_isDigit placesAreDigits []
  rw [List.append_nil, List.takeWhile_nil, List.append_nil] at placesTaken
  rw [List.append_nil, List.dropWhile_nil] at placesDropped
  unfold read?
  simp [taken, dropped, placesTaken, placesDropped, nonempty, readExponent?]

theorem splitSign_digit {first : Char} (isDigit : first.isDigit = true) (rest : List Char) :
    splitSign (first :: rest) = (false, first :: rest) := by
  unfold splitSign
  split
  · next same =>
      cases same
      cases isDigit
  · next same =>
      cases same
      cases isDigit
  · rfl

/-! ## Digits of whole numbers -/

theorem ofDigits_eq_ofDigitChars (figures : List Char) :
    ofDigits figures = Nat.ofDigitChars 10 figures 0 :=
  Nat.ofDigitChars_eq_foldl.symm

theorem isDigit_of_mem_toDigits {whole : Nat} {c : Char} (member : c ∈ Nat.toDigits 10 whole) :
    c.isDigit = true :=
  Nat.isDigit_of_mem_toDigits (by decide) (by decide) member

theorem isDigit_of_mem_replicate {count : Nat} {c : Char}
    (member : c ∈ List.replicate count '0') : c.isDigit = true := by
  rw [List.eq_of_mem_replicate member]
  decide

/-! ## Decimal fractions written out -/

/-- A text is a plain numeral and reads as a decimal fraction. -/
def ReadsAs (text : List Char) (decimal : Decimal) : Prop :=
  IsPlain text ∧ read? text = some decimal

/-- The digits of a whole number with zeros behind them. -/
theorem readsAs_zeros_behind (digits count : Nat) :
    ReadsAs (Nat.toDigits 10 digits ++ List.replicate count '0') ⟨digits * 10 ^ count, 0⟩ := by
  have nonempty : Nat.toDigits 10 digits ++ List.replicate count '0' ≠ [] := by simp
  have areDigits : ∀ c ∈ Nat.toDigits 10 digits ++ List.replicate count '0',
      c.isDigit = true := by
    intro c member
    rcases List.mem_append.1 member with figure | zero
    · exact isDigit_of_mem_toDigits figure
    · exact isDigit_of_mem_replicate zero
  refine ⟨.whole nonempty areDigits, ?_⟩
  rw [read?_whole nonempty areDigits, ofDigits_eq_ofDigitChars, Nat.ofDigitChars_append,
    Nat.ofDigitChars_toDigits (by decide) (by decide), Nat.ofDigitChars_replicate_zero,
    Nat.mul_comm]

/-- The digits of a whole number with a fraction mark among them. -/
theorem readsAs_split (digits : Nat) {position : Nat} (inside : 0 < position)
    (short : position < (Nat.toDigits 10 digits).length) :
    ReadsAs ((Nat.toDigits 10 digits).take position ++ '.' :: (Nat.toDigits 10 digits).drop position)
      ⟨digits, -(((Nat.toDigits 10 digits).length - position : Nat) : Int)⟩ := by
  have nonempty : (Nat.toDigits 10 digits).take position ≠ [] := by
    rw [Ne, List.take_eq_nil_iff]
    rintro (zero | none)
    · omega
    · exact Nat.toDigits_ne_nil none
  have placesNonempty : (Nat.toDigits 10 digits).drop position ≠ [] := by
    rw [Ne, List.drop_eq_nil_iff]
    omega
  have areDigits : ∀ c ∈ (Nat.toDigits 10 digits).take position, c.isDigit = true :=
    fun c member => isDigit_of_mem_toDigits (List.mem_of_mem_take member)
  have placesAreDigits : ∀ c ∈ (Nat.toDigits 10 digits).drop position, c.isDigit = true :=
    fun c member => isDigit_of_mem_toDigits (List.mem_of_mem_drop member)
  refine ⟨.fraction nonempty placesNonempty areDigits placesAreDigits, ?_⟩
  rw [read?_fraction nonempty areDigits placesAreDigits, List.take_append_drop, List.length_drop,
    ofDigits_eq_ofDigitChars, Nat.ofDigitChars_toDigits (by decide) (by decide)]

/-- The digits of a whole number behind a fraction mark and zeros. -/
theorem readsAs_zeros_before (digits count : Nat) :
    ReadsAs ('0' :: '.' :: (List.replicate count '0' ++ Nat.toDigits 10 digits))
      ⟨digits, -((count + (Nat.toDigits 10 digits).length : Nat) : Int)⟩ := by
  have areDigits : ∀ c ∈ ['0'], c.isDigit = true := List.forall_mem_singleton.2 rfl
  have placesNonempty : List.replicate count '0' ++ Nat.toDigits 10 digits ≠ [] := by
    simp
  have placesAreDigits : ∀ c ∈ List.replicate count '0' ++ Nat.toDigits 10 digits,
      c.isDigit = true := by
    intro c member
    rcases List.mem_append.1 member with zero | figure
    · exact isDigit_of_mem_replicate zero
    · exact isDigit_of_mem_toDigits figure
  refine ⟨.fraction (List.cons_ne_nil '0' []) placesNonempty areDigits placesAreDigits, ?_⟩
  have reads := read?_fraction (List.cons_ne_nil '0' []) areDigits placesAreDigits
  have zero : Nat.ofDigitChars 10 ['0'] 0 = 0 := rfl
  rw [ofDigits_eq_ofDigitChars, Nat.ofDigitChars_append, Nat.ofDigitChars_append,
    Nat.ofDigitChars_replicate_zero, zero, Nat.mul_zero,
    Nat.ofDigitChars_toDigits (by decide) (by decide), List.length_append,
    List.length_replicate] at reads
  exact reads

/-- A decimal fraction written out is a plain numeral, and reads back as the same fraction or, if
it is a whole number, as one without an exponent. -/
theorem positional_readsAs (decimal : Decimal) :
    ReadsAs decimal.positional
      (if 0 ≤ decimal.exponent then ⟨decimal.digits * 10 ^ decimal.exponent.toNat, 0⟩
        else decimal) := by
  have position : decimal.pointPosition =
      (Nat.toDigits 10 decimal.digits).length + decimal.exponent := rfl
  unfold positional
  dsimp only
  split
  · exact readsAs_zeros_behind _ _
  · next negative =>
      split
      · next inside =>
          have within : 0 < decimal.pointPosition.toNat := by omega
          have reads := readsAs_split decimal.digits within (by omega)
          rw [show -(((Nat.toDigits 10 decimal.digits).length - decimal.pointPosition.toNat : Nat)
            : Int) = decimal.exponent by omega] at reads
          exact reads
      · next outside =>
          have reads := readsAs_zeros_before decimal.digits (-decimal.pointPosition).toNat
          rw [show -(((-decimal.pointPosition).toNat + (Nat.toDigits 10 decimal.digits).length : Nat)
            : Int) = decimal.exponent by omega] at reads
          exact reads

end Decimal

namespace Number

open Decimal

theorem toLower_of_isDigit {c : Char} (isDigit : c.isDigit = true) : c.toLower = c := by
  unfold Char.toLower
  unfold Char.isDigit at isDigit
  split
  · next upper =>
      simp only [Bool.and_eq_true, decide_eq_true_eq] at isDigit upper
      have high := UInt32.le_trans upper.1 isDigit.2
      contradiction
  · rfl

theorem readMagnitude?_plain {text : List Char} (isPlain : IsPlain text) :
    readMagnitude? text = (Decimal.read? text).map Decimal.rank := by
  obtain ⟨first, rest, rfl, isDigit⟩ := isPlain.exists_cons
  have notWord (word : List Char) (isWord : word.head?.any Char.isDigit = false) :
      (first :: rest).map Char.toLower ≠ word := by
    rintro rfl
    have notDigit : first.toLower.isDigit = false := isWord
    rw [toLower_of_isDigit isDigit, isDigit] at notDigit
    cases notDigit
  unfold readMagnitude?
  dsimp only
  rw [if_neg, if_neg]
  · exact notWord "nan".toList (by decide)
  · rintro (short | long)
    · exact notWord "inf".toList (by decide) short
    · exact notWord "infinity".toList (by decide) long

theorem read?_plain {text : List Char} (isPlain : IsPlain text) :
    read? (String.ofList text) =
      (Decimal.read? text).map fun decimal => ofRank false decimal.rank := by
  have magnitude := readMagnitude?_plain isPlain
  obtain ⟨first, rest, rfl, isDigit⟩ := isPlain.exists_cons
  unfold read?
  rw [String.toList_ofList, splitSign_digit isDigit]
  dsimp only
  rw [magnitude, Option.map_map]
  rfl

/-- What a plain numeral reads as is a number and is not negative. -/
theorem of_read?_plain {text : List Char} (isPlain : IsPlain text) {number : Number}
    (reads : read? (String.ofList text) = some number) :
    number.isNegative = false ∧ number.isNotANumber = false := by
  rw [read?_plain isPlain] at reads
  obtain ⟨decimal, _, rfl⟩ := Option.map_eq_some_iff.1 reads
  have bound := decimal.rank_le_infinityRank
  have small : decimal.rank < signWeight := Nat.lt_of_le_of_lt bound (by decide)
  refine ⟨isNegative_ofRank false small, ?_⟩
  unfold isNotANumber
  rw [rank_ofRank false small]
  exact decide_eq_false (Nat.not_lt.2 bound)

/-- The plain form of a finite number that is not negative is a plain numeral. -/
theorem exists_plain_text {number : Number} (nonnegative : number.isNegative = false)
    (finite : number.isFinite = true) :
    ∃ figures, number.text = String.ofList figures ∧ IsPlain figures ∧
      read? number.text = some number := by
  have below : number.rank < infinityRank := of_decide_eq_true finite
  have notNaN : number.isNotANumber = false := decide_eq_false (by omega)
  have notInfinite : number.isInfinite = false := decide_eq_false (by omega)
  have itself : ofRank false number.rank = number := by
    rw [← nonnegative]
    exact number.ofRank_isNegative_rank
  unfold text
  simp only [notNaN, nonnegative, notInfinite, Bool.false_eq_true, if_false]
  by_cases zero : number.isZero = true
  · rw [if_pos zero]
    have isPlain : IsPlain ['0'] := .whole (by decide) (List.forall_mem_singleton.2 rfl)
    refine ⟨['0'], rfl, isPlain, ?_⟩
    have rankZero : number.rank = 0 := of_decide_eq_true zero
    rw [rankZero] at itself
    exact (read?_plain isPlain).trans (congrArg some itself)
  · rw [if_neg zero]
    have positive : 0 < number.rank :=
      Nat.pos_of_ne_zero (of_decide_eq_false (Bool.eq_false_of_not_eq_true zero))
    generalize shortest : shortestDecimal .upward number.rank = decimal
    have reads := rank_shortestDecimal .upward positive below
    have digitsPositive := digits_shortestDecimal_pos .upward positive below
    rw [shortest] at reads digitsPositive
    obtain ⟨isPlain, readsBack⟩ := decimal.positional_readsAs
    refine ⟨decimal.positional, String.empty_append, isPlain, ?_⟩
    rw [String.empty_append, read?_plain isPlain, readsBack, Option.map_some]
    congr 1
    refine Eq.trans (congrArg (ofRank false) ?_) itself
    split
    · next nonneg =>
        obtain ⟨exponent, exponent_eq⟩ := Int.eq_ofNat_of_zero_le nonneg
        have same : decimal = ⟨decimal.digits, exponent⟩ := by rw [← exponent_eq]
        have finiteDecimal : Decimal.rank ⟨decimal.digits, exponent⟩ < infinityRank := by
          rw [← same, reads]
          exact below
        rw [exponent_eq, Int.toNat_natCast, rank_written_out finiteDecimal digitsPositive, ← same,
          reads]
    · exact reads

end Number

end NanoScript
