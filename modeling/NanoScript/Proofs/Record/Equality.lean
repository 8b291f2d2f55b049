import NanoScript.Proofs.Table.Sorted
import NanoScript.Record

/-!
Contract: when two records are equal.

Owns:
- equality of records that compares numbers by value;
- plain records, whose numbers are numbers and carry no sign, and on which equality is identity;
- plain numbers as data: an infinity is left out, and nothing else is.

Does not own: what the records of phrases and of values hold.
-/

namespace NanoScript

/-! ## Plain numbers -/

/-- A number without a sign. -/
structure Number.IsPlain (value : Number) : Prop where
  unsigned : value.isNegative = false
  isNumber : value.isNotANumber = false

namespace Number.IsPlain

variable {left right : Number}

/-- A plain number is determined by its rank. -/
theorem eq_of_rank_eq (leftPlain : left.IsPlain) (rightPlain : right.IsPlain)
    (ranks : left.rank = right.rank) : left = right := by
  rw [← left.ofRank_isNegative_rank, ← right.ofRank_isNegative_rank, leftPlain.unsigned,
    rightPlain.unsigned, ranks]

/-- The zero that carries a sign being left out, plain numbers of one value are the same. -/
theorem equals_iff (leftPlain : left.IsPlain) (rightPlain : right.IsPlain) :
    left.equals right = true ↔ left = right := by
  simp only [Number.equals, leftPlain.isNumber, rightPlain.isNumber, Bool.not_false, Bool.true_and,
    Bool.or_eq_true, Bool.and_eq_true, decide_eq_true_eq, Number.isZero]
  refine or_iff_left_of_imp ?_
  rintro ⟨leftZero, rightZero⟩
  exact leftPlain.eq_of_rank_eq rightPlain (leftZero.trans rightZero.symm)

/-- A plain number that is not finite ranks as infinity does. -/
theorem rank_of_not_isFinite (plain : left.IsPlain) (infinite : left.isFinite = false) :
    left.rank = infinityRank := by
  have isNumber := plain.isNumber
  simp only [isNotANumber, isFinite, decide_eq_false_iff_not] at isNumber infinite
  omega

end Number.IsPlain

namespace Record

/-- A plain number is determined by what it is as data: that of infinity is the absent value, and
that of every other number is the number itself. -/
theorem ofNumber_injective {left right : Number} (leftPlain : left.IsPlain)
    (rightPlain : right.IsPlain) (same : ofNumber left = ofNumber right) : left = right := by
  unfold ofNumber at same
  cases leftFinite : left.isFinite <;> cases rightFinite : right.isFinite <;>
    simp [leftFinite, rightFinite] at same
  · refine leftPlain.eq_of_rank_eq rightPlain ?_
    rw [leftPlain.rank_of_not_isFinite leftFinite, rightPlain.rank_of_not_isFinite rightFinite]
  · exact same

/-- A record with fields under distinct names determines what it is made of. -/
theorem ofFields_injective {left right : List (String × Record)}
    (same : ofFields left = ofFields right) (names : left.map Prod.fst = right.map Prod.fst)
    (distinct : (left.map Prod.fst).Nodup) : left = right :=
  Table.Sorted.ofList_injective names distinct (fields.inj same)

/-! ## Equality -/

mutual

/-- Equality of records, which compares numbers by value. -/
def equals : Record → Record → Bool
  | .absent, .absent => true
  | .boolean left, .boolean right => decide (left = right)
  | .natural left, .natural right => decide (left = right)
  | .number left, .number right => left.equals right
  | .text left, .text right => decide (left = right)
  | .list left, .list right => itemsEqual left right
  | .fields ⟨left⟩, .fields ⟨right⟩ => entriesEqual left right
  | _, _ => false

/-- Equality of items, one by one. -/
def itemsEqual : List Record → List Record → Bool
  | [], [] => true
  | left :: leftRest, right :: rightRest => left.equals right && itemsEqual leftRest rightRest
  | _, _ => false

/-- Equality of entries that are listed in the same order. -/
def entriesEqual : List (String × Record) → List (String × Record) → Bool
  | [], [] => true
  | (leftName, left) :: leftRest, (rightName, right) :: rightRest =>
      decide (leftName = rightName) && left.equals right && entriesEqual leftRest rightRest
  | _, _ => false

end

theorem itemsEqual_iff {left right : List Record}
    (items : ∀ item ∈ left, ∀ other ∈ right, item.equals other = true ↔ item = other) :
    itemsEqual left right = true ↔ left = right := by
  induction left generalizing right with
  | nil => cases right <;> simp [itemsEqual]
  | cons item rest inductionHypothesis =>
      cases right with
      | nil => simp [itemsEqual]
      | cons other otherRest =>
          have heads := items item List.mem_cons_self other List.mem_cons_self
          have tails : itemsEqual rest otherRest = true ↔ rest = otherRest :=
            inductionHypothesis fun item member other otherMember =>
              items item (List.mem_cons_of_mem _ member) other
                (List.mem_cons_of_mem _ otherMember)
          rw [itemsEqual, Bool.and_eq_true, heads, tails, List.cons.injEq]

theorem entriesEqual_iff {left right : List (String × Record)}
    (entries : ∀ entry ∈ left, ∀ other ∈ right,
      entry.2.equals other.2 = true ↔ entry.2 = other.2) :
    entriesEqual left right = true ↔ left = right := by
  induction left generalizing right with
  | nil => cases right <;> simp [entriesEqual]
  | cons entry rest inductionHypothesis =>
      cases right with
      | nil => simp [entriesEqual]
      | cons other otherRest =>
          obtain ⟨name, value⟩ := entry
          obtain ⟨otherName, otherValue⟩ := other
          have heads : value.equals otherValue = true ↔ value = otherValue :=
            entries (name, value) List.mem_cons_self (otherName, otherValue) List.mem_cons_self
          have tails : entriesEqual rest otherRest = true ↔ rest = otherRest :=
            inductionHypothesis fun entry member other otherMember =>
              entries entry (List.mem_cons_of_mem _ member) other
                (List.mem_cons_of_mem _ otherMember)
          rw [entriesEqual, Bool.and_eq_true, Bool.and_eq_true, decide_eq_true_eq, heads, tails,
            List.cons.injEq, Prod.mk.injEq]

/-! ## Plain records -/

/-- A record all numbers of which are plain. -/
inductive IsPlain : Record → Prop
  | absent : IsPlain .absent
  | boolean (value : Bool) : IsPlain (.boolean value)
  | natural (value : Nat) : IsPlain (.natural value)
  | number {value : Number} (isPlain : value.IsPlain) : IsPlain (.number value)
  | text (value : String) : IsPlain (.text value)
  | list {items : List Record} (arePlain : ∀ item ∈ items, IsPlain item) : IsPlain (.list items)
  | fields {entries : Table.Sorted Record} (arePlain : ∀ entry ∈ entries.entries, IsPlain entry.2) :
      IsPlain (.fields entries)

theorem IsPlain.ofNumber {value : Number} (plain : value.IsPlain) : (ofNumber value).IsPlain := by
  unfold Record.ofNumber
  split
  · exact .number plain
  · exact .absent

theorem IsPlain.ofFields {entries : List (String × Record)}
    (arePlain : ∀ entry ∈ entries, entry.2.IsPlain) : (ofFields entries).IsPlain :=
  .fields fun entry member => arePlain entry (Table.Sorted.mem_of_mem_ofList member)

/-- Plain records are equal just if they are the same. -/
theorem IsPlain.equals_iff {left right : Record} (leftPlain : left.IsPlain)
    (rightPlain : right.IsPlain) : left.equals right = true ↔ left = right := by
  induction leftPlain generalizing right with
  | absent => cases right <;> simp [equals]
  | boolean value => cases right <;> simp [equals]
  | natural value => cases right <;> simp [equals]
  | text value => cases right <;> simp [equals]
  | number isPlain =>
      cases rightPlain with
      | number otherPlain => rw [equals, isPlain.equals_iff otherPlain, number.injEq]
      | _ => simp [equals]
  | list _ inductionHypothesis =>
      cases rightPlain with
      | list othersPlain =>
          rw [equals, list.injEq]
          exact itemsEqual_iff fun item member other otherMember =>
            inductionHypothesis item member (othersPlain other otherMember)
      | _ => simp [equals]
  | @fields entries _ inductionHypothesis =>
      cases rightPlain with
      | @fields others othersPlain =>
          rw [equals, fields.injEq, Table.Sorted.mk.injEq]
          exact entriesEqual_iff fun entry member other otherMember =>
            inductionHypothesis entry member (othersPlain other otherMember)
      | _ => simp [equals]

end Record

end NanoScript
