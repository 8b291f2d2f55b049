import NanoScript.Proofs.Table.Sorted
import NanoScript.Proofs.Value.Equality
import NanoScript.Value.Record
import NanoScript.Value.Text

/-!
Contract: values up to the order in which objects keep their properties.

Owns:
- values with the same content: at every depth the same keys with the same content under each;
- what is shown of such values, which is the same: both ways of showing an object sort what the
  table lists, so that only look-ups count;
- equality of such values, which is that of a value with itself;
- the displayed form of an object, property by property.
-/

namespace NanoScript

/-! ## Tables that list the same in different orders -/

/-- Tables with the same content are sorted alike, whatever is made of the entries before. -/
theorem Table.Distinct.sorted_eq {α β γ : Type} {left : Table α} {right : Table β}
    (leftDistinct : left.Distinct) (rightDistinct : right.Distinct) {onLeft : α → γ}
    {onRight : β → γ}
    (same : ∀ key, (left.find? key).map onLeft = (right.find? key).map onRight) :
    Table.Sorted.ofList (left.entries.map fun entry => (entry.1, onLeft entry.2)) =
      .ofList (right.entries.map fun entry => (entry.1, onRight entry.2)) := by
  refine Table.Sorted.ofList_congr fun key => ?_
  rw [Table.lastUnder_map, Table.lastUnder_map, Table.lastUnder_of_nodup leftDistinct,
    Table.lastUnder_of_nodup rightDistinct]
  exact same key

namespace Value

/-- Two values differ at most in the order in which the objects in them keep their properties. -/
inductive SameContent : Value → Value → Prop
  | same (value : Value) : SameContent value value
  | object {left right : Table Value} (leftDistinct : left.Distinct)
      (rightDistinct : right.Distinct) (keys : ∀ key, left.contains key = right.contains key)
      (values : ∀ key first second, left.find? key = some first →
        right.find? key = some second → SameContent first second) :
      SameContent (.object left) (.object right)

/-- What is made of corresponding values is the same under every key if it is for each two of
them. -/
theorem find?_map_congr {α : Type} {left right : Table Value} {onValue : Value → α}
    (keys : ∀ key, left.contains key = right.contains key)
    (values : ∀ key first second, left.find? key = some first →
      right.find? key = some second → onValue first = onValue second) (key : String) :
    (left.find? key).map onValue = (right.find? key).map onValue := by
  have present := keys key
  unfold Table.contains at present
  cases onLeft : left.find? key <;> cases onRight : right.find? key <;>
    rw [onLeft, onRight] at present
  case none.some => cases present
  case some.none => cases present
  case some.some first second => exact congrArg some (values key first second onLeft onRight)

/-! ## What is shown -/

theorem propertyTexts_eq_map (properties : List (String × Value)) :
    propertyTexts properties = properties.map fun property => (property.1, property.2.text) := by
  induction properties with
  | nil => rfl
  | cons property rest inductionHypothesis => simp [propertyTexts, inductionHypothesis]

theorem propertyRecords_eq_map (store : Store) (properties : List (String × Value)) :
    propertyRecords store properties =
      properties.map fun property => (property.1, property.2.record store) := by
  induction properties with
  | nil => rfl
  | cons property rest inductionHypothesis => simp [propertyRecords, inductionHypothesis]

/-- An object is displayed by its properties in the order of their keys. -/
theorem text_object (properties : Table Value) :
    (object properties).text =
      bracedText ⟨(Table.Sorted.ofList properties.entries).entries.map fun property =>
        (property.1, property.2.text)⟩ := by
  rw [text, propertyTexts_eq_map]
  exact congrArg (fun entries => bracedText ⟨entries⟩)
    (Table.Sorted.entries_ofList_map text properties.entries)

namespace SameContent

variable {left right : Value}

theorem text_eq (alike : left.SameContent right) : left.text = right.text := by
  induction alike with
  | same value => rfl
  | object leftDistinct rightDistinct keys _ inductionHypothesis =>
      rw [text, text, propertyTexts_eq_map, propertyTexts_eq_map]
      exact congrArg bracedText
        (leftDistinct.sorted_eq rightDistinct (find?_map_congr keys inductionHypothesis))

theorem record_eq (alike : left.SameContent right) (store : Store) :
    left.record store = right.record store := by
  induction alike with
  | same value => rfl
  | object leftDistinct rightDistinct keys _ inductionHypothesis =>
      rw [record, record, propertyRecords_eq_map, propertyRecords_eq_map]
      exact congrArg (fun table => Record.ofValue .object [("properties", .fields table)])
        (leftDistinct.sorted_eq rightDistinct (find?_map_congr keys inductionHypothesis))

/-- A value that equals itself equals whatever has its content. -/
theorem equals (alike : left.SameContent right) (self : left.equals left = true) :
    left.equals right = true := by
  induction alike with
  | same value => exact self
  | @object left right leftDistinct rightDistinct keys _ inductionHypothesis =>
      have sizes : left.entries.length = right.entries.length := by
        have sameNames (key : String) : key ∈ left.names ↔ key ∈ right.names := by
          rw [Table.mem_names_iff, Table.mem_names_iff]
          exact Bool.eq_iff_iff.1 (keys key)
        have perm := (List.perm_ext_iff_of_nodup leftDistinct rightDistinct).2 sameNames
        simpa [Table.names] using perm.length_eq
      refine equals_object_iff.2 ⟨sizes, fun property member => ?_⟩
      have here : left.find? property.1 = some property.2 :=
        leftDistinct.mem_entries_iff.1 member
      obtain ⟨again, foundAgain, equalsItself⟩ := (equals_object_iff.1 self).2 property member
      cases here.symm.trans foundAgain
      have present : right.contains property.1 = true := by
        rw [← keys, Table.contains, here]
        rfl
      obtain ⟨other, there⟩ := Option.isSome_iff_exists.1 present
      exact ⟨other, there, inductionHypothesis property.1 _ _ here there equalsItself⟩

theorem isKeyed (alike : left.SameContent right) (keyed : left.IsKeyed) : right.IsKeyed := by
  induction alike with
  | same value => exact keyed
  | @object left right leftDistinct rightDistinct keys _ inductionHypothesis =>
      refine .object rightDistinct fun property member => ?_
      have there : right.find? property.1 = some property.2 :=
        rightDistinct.mem_entries_iff.1 member
      have present : left.contains property.1 = true := by
        rw [keys, Table.contains, there]
        rfl
      obtain ⟨older, here⟩ := Option.isSome_iff_exists.1 present
      exact inductionHypothesis property.1 _ _ here there (keyed.property here)

end SameContent

end Value

end NanoScript
