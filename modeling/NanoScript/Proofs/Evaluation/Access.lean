import NanoScript.Proofs.Evaluation.Primitive
import NanoScript.Proofs.Value.Equality

/-!
Contract: computed member accesses under equal keys.

Owns:
- the two zeros as numbers of their own, and that numbers which are equal and differ are the zeros;
- the values that are taken for keys, and when equal ones are the same;
- what a computed member access of an object reads;
- the theorem that equal keys read the same property unless they are the two zeros, which read two
  properties.

A key is the displayed form of its value, and the displayed form of a number keeps the sign of the
zero, which equality does not see.
-/

namespace NanoScript

/-! ## Zeros -/

namespace Number

def negativeZero : Number :=
  ofRank true 0

theorem zero_ne_negativeZero : zero ≠ negativeZero := by
  decide

theorem eq_zero_or_eq_negativeZero {number : Number} (isZero : number.isZero = true) :
    number = zero ∨ number = negativeZero := by
  have rank : number.rank = 0 := of_decide_eq_true isZero
  have whole := number.ofRank_isNegative_rank
  rw [rank] at whole
  cases sign : number.isNegative with
  | false =>
      rw [sign] at whole
      exact .inl whole.symm
  | true =>
      rw [sign] at whole
      exact .inr whole.symm

/-- Equality tells numbers apart as finely as their patterns do, the zeros aside. -/
theorem eq_or_zeros_of_equals {first second : Number} (same : first.equals second = true) :
    first = second ∨ first = zero ∧ second = negativeZero ∨
      first = negativeZero ∧ second = zero := by
  obtain ⟨_, _, same | ⟨firstZero, secondZero⟩⟩ := equals_iff.1 same
  · exact .inl same
  · rcases eq_zero_or_eq_negativeZero firstZero with rfl | rfl <;>
      rcases eq_zero_or_eq_negativeZero secondZero with rfl | rfl <;> simp

theorem text_zero : zero.text = "0" := by
  decide

theorem text_negativeZero : negativeZero.text = "-0" := by
  decide

end Number

/-! ## Keys -/

/-- The values that a computed member access takes for keys. -/
inductive Value.IsKey : Value → Prop
  | number (number : Number) : IsKey (.number number)
  | boolean (truth : Bool) : IsKey (.boolean truth)

/-- One value is the zero and the other one the negative zero. -/
def Value.AreZeros (first second : Value) : Prop :=
  first = .number .zero ∧ second = .number .negativeZero ∨
    first = .number .negativeZero ∧ second = .number .zero

theorem Value.IsKey.of_equals {first second : Value} (isKey : first.IsKey)
    (same : first.equals second = true) : second.IsKey := by
  cases isKey with
  | number =>
      obtain ⟨other, rfl, _⟩ := equals_iff.1 same
      exact .number other
  | boolean truth =>
      obtain rfl := equals_iff.1 same
      exact .boolean truth

/-- Equal keys are the same value unless they are the two zeros. -/
theorem Value.IsKey.eq_of_equals {first second : Value} (isKey : first.IsKey)
    (same : first.equals second = true) (notZeros : ¬ first.AreZeros second) :
    first = second := by
  cases isKey with
  | number number =>
      obtain ⟨other, rfl, numbers⟩ := equals_iff.1 same
      rcases Number.eq_or_zeros_of_equals numbers with rfl | ⟨rfl, rfl⟩ | ⟨rfl, rfl⟩
      · rfl
      · exact absurd (.inl ⟨rfl, rfl⟩) notZeros
      · exact absurd (.inr ⟨rfl, rfl⟩) notZeros
  | boolean truth => exact (equals_iff.1 same).symm

theorem Value.IsKey.propertyKey_eq {key : Value} (isKey : key.IsKey) (span : Span) :
    Evaluation.propertyKey key span = pure key.text := by
  cases isKey <;> rfl

/-! ## Reading a property -/

namespace Phrase

open Evaluation

variable {invoker : Invoker} {scope : ScopeId} {object property left right : Phrase}
  {state middle after afterLeft afterRight : State} {properties : Table Value}
  {key first second : Value}

/-- A computed member access of an object reads the property under the displayed form of its key. -/
theorem evaluate_computedMember
    (target : object.evaluate invoker scope state = .ok (.object properties) middle)
    (keyed : property.evaluate invoker scope middle = .ok key after) (isKey : key.IsKey)
    (span : Span) :
    (Phrase.member object property true span).evaluate invoker scope state =
      .ok ((properties.find? key.text).getD .null) after := by
  rw [Phrase.evaluate, bind_apply, target]
  dsimp only
  rw [if_pos rfl, bind_apply, keyed]
  dsimp only
  rw [isKey.propertyKey_eq, pure_bind]
  rfl

/-- Two computed member accesses of one object whose keys are equal read the same property, unless
the keys are the two zeros.  Zero reads the property that is called 0, and the negative zero the one
that is called -0. -/
theorem evaluate_member_of_equal_keys
    (target : object.evaluate invoker scope state = .ok (.object properties) middle)
    (leftKeyed : left.evaluate invoker scope middle = .ok first afterLeft)
    (rightKeyed : right.evaluate invoker scope middle = .ok second afterRight)
    (isKey : first.IsKey) (same : first.equals second = true) (leftSpan rightSpan : Span) :
    let readLeft := (Phrase.member object left true leftSpan).evaluate invoker scope state
    let readRight := (Phrase.member object right true rightSpan).evaluate invoker scope state
    (¬ first.AreZeros second →
      ∃ value, readLeft = .ok value afterLeft ∧ readRight = .ok value afterRight) ∧
    (first = .number .zero → second = .number .negativeZero →
      readLeft = .ok ((properties.find? "0").getD .null) afterLeft ∧
        readRight = .ok ((properties.find? "-0").getD .null) afterRight) := by
  intro readLeft readRight
  have leftReads : readLeft = .ok ((properties.find? first.text).getD .null) afterLeft :=
    evaluate_computedMember target leftKeyed isKey leftSpan
  have rightReads : readRight = .ok ((properties.find? second.text).getD .null) afterRight :=
    evaluate_computedMember target rightKeyed (isKey.of_equals same) rightSpan
  refine ⟨fun notZeros => ?_, fun isZero isNegativeZero => ?_⟩
  · obtain rfl := isKey.eq_of_equals same notZeros
    exact ⟨_, leftReads, rightReads⟩
  · rw [isZero, Value.text, Number.text_zero] at leftReads
    rw [isNegativeZero, Value.text, Number.text_negativeZero] at rightReads
    exact ⟨leftReads, rightReads⟩

/-- An object with a property called 0, read under zero, under a name for zero and under a name for
the negative zero. -/
theorem zeros_as_keys :
    let scope := State.initial.1
    let properties : Table Value := ⟨[("0", .boolean true)]⟩
    let state := ((State.initial.2.bind scope "o" ⟨.object properties, false⟩).bind scope "n"
      ⟨.number .zero, false⟩).bind scope "z" ⟨.number .negativeZero, false⟩
    let read : Phrase → EStateM.Result Stop State Value := fun key =>
      (Phrase.member (.identifier "o" ⟨0, 1⟩) key true ⟨0, 4⟩).evaluate
        (Invoker.upTo Host.standard 0) scope state
    (∃ value, read (.numericLiteral .zero ⟨2, 3⟩) = .ok value state ∧
        read (.identifier "n" ⟨2, 3⟩) = .ok value state) ∧
      read (.numericLiteral .zero ⟨2, 3⟩) = .ok (.boolean true) state ∧
        read (.identifier "z" ⟨2, 3⟩) = .ok .null state := by
  intro scope properties state read
  have target : (Phrase.identifier "o" ⟨0, 1⟩).evaluate (Invoker.upTo Host.standard 0) scope state =
      .ok (.object properties) state := rfl
  have named : (Phrase.identifier "n" ⟨2, 3⟩).evaluate (Invoker.upTo Host.standard 0) scope state =
      .ok (.number .zero) state := rfl
  have negative : (Phrase.identifier "z" ⟨2, 3⟩).evaluate (Invoker.upTo Host.standard 0) scope
      state = .ok (.number .negativeZero) state := rfl
  have literal : (Phrase.numericLiteral .zero ⟨2, 3⟩).evaluate (Invoker.upTo Host.standard 0) scope
      state = .ok (.number .zero) state := rfl
  refine ⟨?_, ?_⟩
  · refine (evaluate_member_of_equal_keys target literal named (.number _) (by decide) ⟨0, 4⟩
      ⟨0, 4⟩).1 fun zeros => ?_
    rcases zeros with ⟨_, isNegative⟩ | ⟨isNegative, _⟩ <;>
      exact Number.zero_ne_negativeZero (Value.number.inj isNegative)
  · exact (evaluate_member_of_equal_keys target literal negative (.number _) (by decide) ⟨0, 4⟩
      ⟨0, 4⟩).2 rfl rfl

/-- Zero and the negative zero are equal keys, and they do not read the same property. -/
theorem equal_keys_read_apart :
    let scope := State.initial.1
    let properties : Table Value := ⟨[("0", .boolean true)]⟩
    let state := (State.initial.2.bind scope "o" ⟨.object properties, false⟩).bind scope "z"
      ⟨.number .negativeZero, false⟩
    let evaluate : Phrase → EStateM.Result Stop State Value := fun phrase =>
      phrase.evaluate (Invoker.upTo Host.standard 0) scope state
    let read : Phrase → EStateM.Result Stop State Value := fun key =>
      evaluate (.member (.identifier "o" ⟨0, 1⟩) key true ⟨0, 4⟩)
    evaluate (.numericLiteral .zero ⟨2, 3⟩) = .ok (.number .zero) state ∧
      evaluate (.identifier "z" ⟨2, 3⟩) = .ok (.number .negativeZero) state ∧
      (Value.number .zero).equals (.number .negativeZero) = true ∧
      read (.numericLiteral .zero ⟨2, 3⟩) ≠ read (.identifier "z" ⟨2, 3⟩) := by
  intro scope properties state evaluate read
  refine ⟨rfl, rfl, by decide, fun same => ?_⟩
  have positive : read (.numericLiteral .zero ⟨2, 3⟩) = .ok (.boolean true) state := rfl
  have negative : read (.identifier "z" ⟨2, 3⟩) = .ok .null state := rfl
  rw [positive, negative] at same
  cases same

end Phrase

end NanoScript
