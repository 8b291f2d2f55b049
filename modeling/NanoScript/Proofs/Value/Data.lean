import NanoScript.Proofs.Phrase.Words
import NanoScript.Proofs.Reprinting.Construction
import NanoScript.Proofs.Value.Content

/-!
Contract: data, the values that the language has expressions for.

Owns:
- data values: the absent value, booleans, finite numbers without a sign, and objects of data under
  names;
- the expression that stands for a data value, with the words that its displayed form spells;
- data values are equal to themselves.

An object is displayed as an object literal except for the blank between the braces of an empty one.
Its properties are displayed, and written in the literal, in the order of their keys.
-/

namespace NanoScript

open Token

/-- A value without functions, negative numbers or numbers that are not finite, in which every key
of an object can be a name. -/
inductive Value.IsData : Value → Prop
  | null : IsData .null
  | boolean (value : Bool) : IsData (.boolean value)
  | number {value : Number} (finite : value.isFinite = true)
      (nonnegative : value.isNegative = false) : IsData (.number value)
  | object {properties : Table Value} (distinct : properties.Distinct)
      (areNames : ∀ property ∈ properties.entries, IsName property.1)
      (values : ∀ property ∈ properties.entries, IsData property.2) : IsData (.object properties)

mutual

/-- The expression that stands for a data value.  No expression stands for a function; here it is
the name of the function. -/
def Value.phrase : Value → Phrase
  | .null => .identifier "null" (Span.empty 0)
  | .boolean value => .identifier (if value then "true" else "false") (Span.empty 0)
  | .number value => .numericLiteral value (Span.empty 0)
  | .object ⟨properties⟩ =>
      .objectLiteral
        ((Table.Sorted.ofList (Value.propertyPhrases properties)).entries.map fun property =>
          .keyed property.1 property.2 (Span.empty 0))
        (Span.empty 0)
  | .function declared => .identifier declared.name (Span.empty 0)
  | .native provided => .identifier provided.name (Span.empty 0)

/-- The expressions that stand for the values of properties, under their keys. -/
def Value.propertyPhrases : List (String × Value) → List (String × Phrase)
  | [] => []
  | (key, value) :: rest => (key, value.phrase) :: Value.propertyPhrases rest

end

theorem Value.propertyPhrases_eq_map (properties : List (String × Value)) :
    Value.propertyPhrases properties =
      properties.map fun property => (property.1, property.2.phrase) := by
  induction properties with
  | nil => rfl
  | cons property rest inductionHypothesis => simp [Value.propertyPhrases, inductionHypothesis]

/-- The entry that stands for a property. -/
def Value.entry (property : String × Value) : Entry :=
  .keyed property.1 property.2.phrase (Span.empty 0)

/-- An object is written with the entries for its properties in the order of their keys. -/
theorem Value.phrase_object (properties : Table Value) :
    (Value.object properties).phrase =
      .objectLiteral ((Table.Sorted.ofList properties.entries).entries.map Value.entry)
        (Span.empty 0) := by
  rw [Value.phrase, propertyPhrases_eq_map, Table.Sorted.entries_ofList_map, List.map_map]
  rfl

/-- An object with properties is displayed as an object literal is written. -/
theorem Value.bracedText_eq_braced {properties : List (String × Value)}
    (nonempty : properties ≠ []) :
    Value.bracedText ⟨properties.map fun property => (property.1, property.2.text)⟩ =
      braced (properties.map fun property => property.1 ++ ": " ++ property.2.text) := by
  rw [bracedText, if_neg (mt List.map_eq_nil_iff.1 nonempty), braced, List.map_map, List.map_map]
  simp [Function.comp_def, String.append_assoc]

theorem Number.isNotANumber_of_isFinite {value : Number} (finite : value.isFinite = true) :
    value.isNotANumber = false := by
  simp only [isFinite, isNotANumber, decide_eq_true_eq, decide_eq_false_iff_not] at finite ⊢
  omega

instance (text : String) : Decidable (Token.IsName text) :=
  decidable_of_iff
    (text.toList ≠ [] ∧ text.toList.all isLetter = true ∧ Kind.ofWord text = .identifier)
    ⟨fun ⟨nonempty, areLetters, noKeyword⟩ => ⟨nonempty, List.all_eq_true.1 areLetters, noKeyword⟩,
      fun isName => ⟨isName.nonempty, List.all_eq_true.2 isName.areLetters, isName.noKeyword⟩⟩

theorem Token.isName_null : IsName "null" := by
  decide

theorem Token.isName_boolean (value : Bool) : IsName (if value then "true" else "false") := by
  cases value <;> decide

namespace Value.IsData

variable {value : Value}

/-- What the properties of an object have in common, those have that are listed in the order of the
keys. -/
theorem forall_sorted {properties : Table Value} {holds : String × Value → Prop}
    (each : ∀ property ∈ properties.entries, holds property) :
    ∀ property ∈ (Table.Sorted.ofList properties.entries).entries, holds property :=
  fun property member => each property (Table.Sorted.mem_of_mem_ofList member)

theorem isExpression (data : value.IsData) : value.phrase.IsExpression := by
  induction data with
  | null => exact .identifier isName_null
  | boolean value => exact .identifier (isName_boolean value)
  | number finite nonnegative =>
      exact .numericLiteral nonnegative (Number.isNotANumber_of_isFinite finite)
  | object distinct areNames values inductionHypothesis =>
      rw [phrase_object]
      refine .objectLiteral ?_ ?_
      · intro entry member
        obtain ⟨property, listed, rfl⟩ := List.mem_map.1 member
        exact forall_sorted areNames property listed
      · intro entry member written isWritten
        obtain ⟨property, listed, rfl⟩ := List.mem_map.1 member
        cases isWritten
        exact forall_sorted inductionHypothesis property listed

theorem derivable (data : value.IsData) : Grammar.Derivable value.phrase := by
  induction data with
  | null => exact Grammar.derivable_identifier ..
  | boolean value => exact Grammar.derivable_identifier ..
  | number finite nonnegative => exact Grammar.derivable_numericLiteral nonnegative finite _
  | object distinct areNames values inductionHypothesis =>
      rw [phrase_object]
      apply Grammar.derivable_objectLiteral
      intro entry member written isWritten
      obtain ⟨property, listed, rfl⟩ := List.mem_map.1 member
      cases isWritten
      exact forall_sorted inductionHypothesis property listed

/-- The displayed form of a data value spells the words of the expression that stands for it. -/
theorem spells (data : value.IsData) : Spells value.text.toList value.phrase.words := by
  induction data with
  | null => exact .ofName isName_null
  | boolean value => exact .ofName (isName_boolean value)
  | number finite nonnegative =>
      exact .ofNumber nonnegative (Number.isNotANumber_of_isFinite finite)
  | @object properties distinct areNames values inductionHypothesis =>
      rw [phrase_object, Phrase.words_objectLiteral, List.map_map, text_object]
      have areListed := forall_sorted areNames
      have spelled := forall_sorted inductionHypothesis
      generalize (Table.Sorted.ofList properties.entries).entries = listed at areListed spelled
      cases listed with
      | nil => exact .ofMark rfl (by decide) (.ofMark rfl (by decide) .nil)
      | cons first rest =>
          rw [bracedText_eq_braced (List.cons_ne_nil first rest)]
          apply Spells.braced
          intro property member
          rw [String.append_assoc, String.toList_append, String.toList_append]
          have behind := Spells.layout (c := ' ') (by decide) (spelled property member)
          exact .append (.ofName (areListed property member))
            (.ofMark (c := ':') rfl (by decide) behind) (.cons (by decide) _)

theorem isKeyed (data : value.IsData) : value.IsKeyed := by
  induction data with
  | null => exact .null
  | boolean value => exact .boolean value
  | number finite nonnegative => exact .number _
  | object distinct areNames values inductionHypothesis =>
      exact .object distinct inductionHypothesis

/-- Nothing in a data value fails to be a number that stands for one. -/
theorem isNumber (data : value.IsData) {number : Number} (occurs : number.OccursIn value) :
    number.isNotANumber = false := by
  induction data with
  | number finite nonnegative =>
      cases occurs
      exact Number.isNotANumber_of_isFinite finite
  | object distinct areNames values inductionHypothesis =>
      cases occurs with
      | property member inside => exact inductionHypothesis _ member inside
  | null => cases occurs
  | boolean value => cases occurs

theorem equals_self (data : value.IsData) : value.equals value = true :=
  (equals_self_iff data.isKeyed).2 fun _ => data.isNumber

end Value.IsData

end NanoScript
