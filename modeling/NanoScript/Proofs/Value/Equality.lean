import NanoScript.Proofs.Table
import NanoScript.Value.Basic

/-!
Contract: equality of values is a partial equivalence.

Owns:
- equality of numbers, which only what is not a number lacks with itself;
- induction over values, an object after its properties;
- values whose objects have each of their keys once, as hash maps do;
- equality of such values is symmetric and transitive, and a value equals itself unless something in
  it is not a number.

Objects are compared by their sizes and by looking up the keys of one of them in the other.  That it
does not matter of which one takes a count: as many keys as the other object has, all of them keys
of it, are all of its keys.
-/

namespace NanoScript

/-! ## Numbers -/

namespace Number

variable {left middle right : Number}

theorem equals_iff :
    left.equals right = true ↔
      left.isNotANumber = false ∧ right.isNotANumber = false ∧
        (left = right ∨ left.isZero = true ∧ right.isZero = true) := by
  simp [equals, and_assoc]

theorem equals_symm (same : left.equals right = true) : right.equals left = true := by
  obtain ⟨isLeft, isRight, same⟩ := equals_iff.1 same
  exact equals_iff.2 ⟨isRight, isLeft, same.imp Eq.symm And.symm⟩

theorem equals_trans (first : left.equals middle = true) (second : middle.equals right = true) :
    left.equals right = true := by
  obtain ⟨isLeft, _, first⟩ := equals_iff.1 first
  obtain ⟨_, isRight, second⟩ := equals_iff.1 second
  refine equals_iff.2 ⟨isLeft, isRight, ?_⟩
  rcases first with rfl | ⟨leftZero, middleZero⟩
  · exact second
  · rcases second with rfl | ⟨_, rightZero⟩
    · exact .inr ⟨leftZero, middleZero⟩
    · exact .inr ⟨leftZero, rightZero⟩

theorem equals_self_iff : left.equals left = true ↔ left.isNotANumber = false := by
  simp [equals]

/-- A number occurs in a value: it is the value, or it occurs in a property of the object that the
value is. -/
inductive OccursIn (number : Number) : Value → Prop
  | self : OccursIn number (.number number)
  | property {properties : Table Value} {property : String × Value}
      (member : property ∈ properties.entries) (occurs : OccursIn number property.2) :
      OccursIn number (.object properties)

end Number

namespace Value

/-! ## Induction -/

/-- What holds of an object if it holds of the values of its properties, and of everything that is
no object, holds of every value. -/
theorem induction {motive : Value → Prop} (null : motive .null)
    (boolean : ∀ value, motive (.boolean value)) (number : ∀ value, motive (.number value))
    (object : ∀ properties : Table Value, (∀ property ∈ properties.entries, motive property.2) →
      motive (.object properties))
    (function : ∀ declared, motive (.function declared))
    (native : ∀ provided, motive (.native provided)) (value : Value) : motive value := by
  -- The other motives are those of the table of an object, of its list and of one property.
  apply @Value.rec motive (fun properties => ∀ property ∈ properties.entries, motive property.2)
    (fun listed => ∀ property ∈ listed, motive property.2) (fun property => motive property.2)
  case null => exact null
  case boolean => exact boolean
  case number => exact number
  case object => exact object
  case function => exact function
  case native => exact native
  case mk => exact fun _ each => each
  case nil => exact nofun
  case cons => exact fun _ _ first others => List.forall_mem_cons.2 ⟨first, others⟩
  case mk => exact fun _ _ holds => holds

/-! ## Objects -/

/-- Every object in a value has each of its keys once. -/
inductive IsKeyed : Value → Prop
  | null : IsKeyed .null
  | boolean (value : Bool) : IsKeyed (.boolean value)
  | number (value : Number) : IsKeyed (.number value)
  | object {properties : Table Value} (distinct : properties.Distinct)
      (values : ∀ property ∈ properties.entries, IsKeyed property.2) :
      IsKeyed (.object properties)
  | function (declared : Function) : IsKeyed (.function declared)
  | native (provided : NativeFunction) : IsKeyed (.native provided)

theorem isKeyed_of_kind {value : Value} (notObject : value.kind ≠ .object) : value.IsKeyed := by
  cases value with
  | null => exact .null
  | boolean value => exact .boolean value
  | number value => exact .number value
  | object properties => exact absurd rfl notObject
  | function declared => exact .function declared
  | native provided => exact .native provided

/-- Setting a property leaves every key there once. -/
theorem IsKeyed.insert {properties : Table Value} (keyed : (Value.object properties).IsKeyed)
    (key : String) {value : Value} (valueKeyed : value.IsKeyed) :
    (Value.object (properties.insert key value)).IsKeyed := by
  cases keyed with
  | object distinct values =>
      refine .object (distinct.insert key value) fun property member => ?_
      rcases Table.eq_or_mem_of_mem_insert member with rfl | older
      · exact valueKeyed
      · exact values property older

theorem IsKeyed.property {properties : Table Value} (keyed : (Value.object properties).IsKeyed)
    {key : String} {value : Value} (found : properties.find? key = some value) :
    value.IsKeyed := by
  cases keyed with
  | object distinct values => exact values (key, value) (Table.mem_of_find? found)

/-- Each property of one object is found in another one, with an equal value. -/
def AllFoundIn (others properties : Table Value) : Prop :=
  ∀ property ∈ properties.entries, ∃ value, others.find? property.1 = some value ∧
    property.2.equals value = true

theorem propertiesAmong_iff {others properties : List (String × Value)} :
    propertiesAmong others properties = true ↔ AllFoundIn ⟨others⟩ ⟨properties⟩ := by
  unfold AllFoundIn
  induction properties with
  | nil => simp [propertiesAmong]
  | cons property rest inductionHypothesis =>
      obtain ⟨key, value⟩ := property
      rw [propertiesAmong, Bool.and_eq_true, inductionHypothesis, List.forall_mem_cons]
      refine and_congr_left fun _ => ?_
      cases found : Table.seek key others <;> simp [Table.find?, found]

/-- What equals a value: a value of its form with equal parts. -/
def IsMatchedBy (other : Value) : Value → Prop
  | .null => other = .null
  | .boolean value => other = .boolean value
  | .number value => ∃ last, other = .number last ∧ value.equals last = true
  | .object properties =>
      ∃ others, other = .object others ∧
        properties.entries.length = others.entries.length ∧ AllFoundIn others properties
  | .function declared => ∃ last, other = .function last ∧ declared.sameDeclaration last = true
  | .native provided => ∃ last, other = .native last ∧ provided.name = last.name

theorem equals_iff {first second : Value} :
    first.equals second = true ↔ IsMatchedBy second first := by
  cases first <;> cases second <;> simp [equals, IsMatchedBy, propertiesAmong_iff]
  case boolean.boolean => exact eq_comm

/-- Objects are equal if they have as many properties and each property of the first is found in the
second with an equal value. -/
theorem equals_object_iff {left right : Table Value} :
    (object left).equals (.object right) = true ↔
      left.entries.length = right.entries.length ∧ AllFoundIn right left := by
  simp [equals_iff, IsMatchedBy]

/-! ## Declared functions -/

theorem sameDeclaration_iff {left right : Function} :
    left.sameDeclaration right = true ↔
      left.name = right.name ∧ left.bodyId = right.bodyId ∧ left.closure = right.closure := by
  simp [Function.sameDeclaration]

theorem sameDeclaration_symm {left right : Function} (same : left.sameDeclaration right = true) :
    right.sameDeclaration left = true := by
  obtain ⟨names, bodies, closures⟩ := sameDeclaration_iff.1 same
  exact sameDeclaration_iff.2 ⟨names.symm, bodies.symm, closures.symm⟩

theorem sameDeclaration_trans {left middle right : Function}
    (first : left.sameDeclaration middle = true) (second : middle.sameDeclaration right = true) :
    left.sameDeclaration right = true := by
  obtain ⟨names, bodies, closures⟩ := sameDeclaration_iff.1 first
  obtain ⟨laterNames, laterBodies, laterClosures⟩ := sameDeclaration_iff.1 second
  exact sameDeclaration_iff.2
    ⟨names.trans laterNames, bodies.trans laterBodies, closures.trans laterClosures⟩

/-! ## The laws -/

/-- As many keys as another object has, all of them found there, are all its keys, so that the keys
of that object are found here. -/
theorem AllFoundIn.symm {left right : Table Value} (leftDistinct : left.Distinct)
    (rightDistinct : right.Distinct) (sizes : left.entries.length = right.entries.length)
    (found : AllFoundIn right left)
    (turns : ∀ property ∈ left.entries, ∀ other ∈ right.entries,
      property.2.equals other.2 = true → other.2.equals property.2 = true) :
    AllFoundIn left right := by
  have among : left.names ⊆ right.names := by
    intro key member
    obtain ⟨property, listed, rfl⟩ := List.mem_map.1 member
    obtain ⟨value, isFound, _⟩ := found property listed
    exact Table.mem_names_iff.2 (isFound ▸ rfl)
  rintro ⟨key, other⟩ listed
  have covered := leftDistinct.names_subset sizes among (List.mem_map_of_mem listed)
  obtain ⟨value, isHere⟩ := Option.isSome_iff_exists.1 (Table.mem_names_iff.1 covered)
  have property := leftDistinct.mem_entries_iff.2 isHere
  obtain ⟨last, isThere, equal⟩ := found (key, value) property
  rw [rightDistinct.mem_entries_iff.1 listed] at isThere
  cases isThere
  exact ⟨value, isHere, turns (key, value) property (key, other) listed equal⟩

theorem equals_symm {first second : Value} (keyed : first.IsKeyed) (otherKeyed : second.IsKeyed)
    (same : first.equals second = true) : second.equals first = true := by
  induction keyed generalizing second with
  | null =>
      obtain rfl := equals_iff.1 same
      exact same
  | boolean value =>
      obtain rfl := equals_iff.1 same
      exact same
  | number value =>
      obtain ⟨other, rfl, numbers⟩ := equals_iff.1 same
      exact equals_iff.2 ⟨value, rfl, Number.equals_symm numbers⟩
  | object distinct values inductionHypothesis =>
      obtain ⟨others, rfl, sizes, found⟩ := equals_iff.1 same
      cases otherKeyed with
      | object othersDistinct othersKeyed =>
          refine equals_iff.2 ⟨_, rfl, sizes.symm, ?_⟩
          refine found.symm distinct othersDistinct sizes fun property member other listed => ?_
          exact inductionHypothesis property member (othersKeyed other listed)
  | function declared =>
      obtain ⟨other, rfl, declarations⟩ := equals_iff.1 same
      exact equals_iff.2 ⟨declared, rfl, sameDeclaration_symm declarations⟩
  | native provided =>
      obtain ⟨other, rfl, names⟩ := equals_iff.1 same
      exact equals_iff.2 ⟨provided, rfl, names.symm⟩

theorem equals_trans {first second third : Value} (left : first.equals second = true)
    (right : second.equals third = true) : first.equals third = true := by
  induction first using Value.induction generalizing second third with
  | null =>
      obtain rfl := equals_iff.1 left
      exact right
  | boolean value =>
      obtain rfl := equals_iff.1 left
      exact right
  | number value =>
      obtain ⟨middle, rfl, toMiddle⟩ := equals_iff.1 left
      obtain ⟨last, rfl, toLast⟩ := equals_iff.1 right
      exact equals_iff.2 ⟨last, rfl, Number.equals_trans toMiddle toLast⟩
  | object properties inductionHypothesis =>
      obtain ⟨middle, rfl, sizes, inMiddle⟩ := equals_iff.1 left
      obtain ⟨last, rfl, lastSizes, inLast⟩ := equals_iff.1 right
      refine equals_iff.2 ⟨last, rfl, sizes.trans lastSizes, fun property member => ?_⟩
      obtain ⟨between, found, toMiddle⟩ := inMiddle property member
      obtain ⟨value, lastFound, toLast⟩ := inLast (property.1, between) (Table.mem_of_find? found)
      exact ⟨value, lastFound, inductionHypothesis property member toMiddle toLast⟩
  | function declared =>
      obtain ⟨middle, rfl, declarations⟩ := equals_iff.1 left
      obtain ⟨last, rfl, lastDeclarations⟩ := equals_iff.1 right
      exact equals_iff.2 ⟨last, rfl, sameDeclaration_trans declarations lastDeclarations⟩
  | native provided =>
      obtain ⟨middle, rfl, names⟩ := equals_iff.1 left
      obtain ⟨last, rfl, lastNames⟩ := equals_iff.1 right
      exact equals_iff.2 ⟨last, rfl, names.trans lastNames⟩

theorem equals_self_iff {value : Value} (keyed : value.IsKeyed) :
    value.equals value = true ↔
      ∀ number : Number, number.OccursIn value → number.isNotANumber = false := by
  induction keyed with
  | object distinct _ inductionHypothesis =>
      rw [equals_object_iff]
      constructor
      · rintro ⟨_, found⟩ number occurs
        cases occurs with
        | @property _ property member inside =>
            obtain ⟨value, isThere, equal⟩ := found property member
            rw [distinct.mem_entries_iff.1 member] at isThere
            cases isThere
            exact (inductionHypothesis property member).1 equal number inside
      · intro numbers
        refine ⟨rfl, fun property member => ?_⟩
        refine ⟨property.2, distinct.mem_entries_iff.1 member, ?_⟩
        exact (inductionHypothesis property member).2 fun number inside =>
          numbers number (.property member inside)
  | number value =>
      rw [equals, Number.equals_self_iff]
      constructor
      · intro isNumber number occurs
        cases occurs
        exact isNumber
      · exact fun numbers => numbers value .self
  | _ =>
      refine ⟨fun _ number occurs => ?_, fun _ => ?_⟩
      · cases occurs
      · simp [equals_iff, IsMatchedBy, sameDeclaration_iff]

end Value

end NanoScript
