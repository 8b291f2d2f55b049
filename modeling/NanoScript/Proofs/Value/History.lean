import NanoScript.Proofs.Evaluation.Primitive
import NanoScript.Proofs.Value.Content

/-!
Contract: what is shown of a value does not depend on how its objects were filled.

Owns:
- histories of values, which keep every property that was ever entered into an object;
- histories with the same content: under each key, what was entered last has the same content;
- the objects that literals make, filled in the order of the entries;
- the theorem that values with the same content have one displayed form and one record, and that an
  object is displayed key by key in ascending order.

A history fixes the order in which the table of an object keeps its properties, and histories with
the same content may fix different ones.  What is said of values with the same content holds in any
order.
-/

namespace NanoScript

namespace Value

/-- How a value came about.  Into an object, properties were entered one after the other, the later
ones over the earlier ones of the same key. -/
inductive History where
  | null
  | boolean (value : Bool)
  | number (value : Number)
  | object (entered : List (String × History))
  | function (declared : Function)
  | native (provided : NativeFunction)

namespace History

mutual

/-- The value that came about. -/
def value : History → Value
  | .null => .null
  | .boolean value => .boolean value
  | .number value => .number value
  | .object entered => .object (Table.ofList (enteredValues entered))
  | .function declared => .function declared
  | .native provided => .native provided

/-- The properties that were entered. -/
def enteredValues : List (String × History) → List (String × Value)
  | [] => []
  | (key, history) :: rest => (key, history.value) :: enteredValues rest

end

theorem enteredValues_eq_map (entered : List (String × History)) :
    enteredValues entered = entered.map fun property => (property.1, property.2.value) := by
  induction entered with
  | nil => rfl
  | cons property rest inductionHypothesis => simp [enteredValues, inductionHypothesis]

/-- Under a key stands what was entered there last. -/
theorem find?_ofList_enteredValues (entered : List (String × History)) (key : String) :
    (Table.ofList (enteredValues entered)).find? key =
      (Table.lastUnder key entered).map value := by
  rw [Table.find?_ofList, enteredValues_eq_map, Table.lastUnder_map]

/-! ## Content -/

/-- Two histories differ at most in the order in which properties were entered into objects, and in
properties that others were entered over. -/
inductive SameContent : History → History → Prop
  | same (history : History) : SameContent history history
  | object {left right : List (String × History)}
      (keys : ∀ key, (Table.lastUnder key left).isSome = (Table.lastUnder key right).isSome)
      (properties : ∀ key first second, Table.lastUnder key left = some first →
        Table.lastUnder key right = some second → SameContent first second) :
      SameContent (.object left) (.object right)

/-- Histories with the same content lead to values with the same content. -/
theorem SameContent.values {left right : History} (alike : left.SameContent right) :
    left.value.SameContent right.value := by
  induction alike with
  | same history => exact .same history.value
  | @object left right keys _ inductionHypothesis =>
      rw [value, value]
      refine .object (Table.distinct_ofList _) (Table.distinct_ofList _) (fun key => ?_) ?_
      · rw [Table.contains, Table.contains, find?_ofList_enteredValues,
          find?_ofList_enteredValues, Option.isSome_map, Option.isSome_map]
        exact keys key
      · intro key first second onLeft onRight
        rw [find?_ofList_enteredValues] at onLeft onRight
        obtain ⟨older, wasLeft, rfl⟩ := Option.map_eq_some_iff.1 onLeft
        obtain ⟨other, wasRight, rfl⟩ := Option.map_eq_some_iff.1 onRight
        exact inductionHypothesis key older other wasLeft wasRight

end History

end Value

/-! ## Literals -/

/-- Entries are entered one after the other, each with its value under its key. -/
theorem Entry.evaluateAll_eq_ok {invoker : Invoker} {scope : ScopeId} {entries : List Entry}
    {table filled : Table Value} {state later : State}
    (gives : Entry.evaluateAll invoker scope table entries state = .ok filled later) :
    ∃ values : List Value, values.length = entries.length ∧
      filled = ((entries.map Entry.key).zip values).foldl
        (fun table property => table.insert property.1 property.2) table := by
  induction entries generalizing table state with
  | nil =>
      cases gives
      exact ⟨[], rfl, rfl⟩
  | cons entry rest inductionHypothesis =>
      rw [Entry.evaluateAll, Evaluation.bind_apply] at gives
      cases first : entry.evaluate invoker scope state with
      | error stop after =>
          rw [first] at gives
          cases gives
      | ok value after =>
          rw [first] at gives
          obtain ⟨values, sizes, rfl⟩ := inductionHypothesis gives
          exact ⟨value :: values, congrArg Nat.succ sizes, rfl⟩

/-- An object literal makes the object into which its entries were entered in order. -/
theorem Phrase.evaluate_objectLiteral_eq_ok {invoker : Invoker} {scope : ScopeId}
    {entries : List Entry} {span : Span} {value : Value} {state later : State}
    (gives : (Phrase.objectLiteral entries span).evaluate invoker scope state = .ok value later) :
    ∃ values : List Value, values.length = entries.length ∧
      value = .object (Table.ofList ((entries.map Entry.key).zip values)) := by
  rw [Phrase.evaluate, Evaluation.bind_apply] at gives
  cases filling : Entry.evaluateAll invoker scope .empty entries state with
  | error stop after =>
      rw [filling] at gives
      cases gives
  | ok table after =>
      rw [filling] at gives
      cases gives
      obtain ⟨values, sizes, rfl⟩ := Entry.evaluateAll_eq_ok filling
      exact ⟨values, sizes, rfl⟩

/-! ## What is shown -/

namespace Value

/-- An object appears with each of its keys once, in ascending order, with the displayed form of
what stands there. -/
theorem text_of_distinct {properties : Table Value} (distinct : properties.Distinct) :
    ∃ listed : List (String × Value), (listed.map Prod.fst).Pairwise (· < ·) ∧
      (∀ key value, (key, value) ∈ listed ↔ properties.find? key = some value) ∧
      (Value.object properties).text =
        if listed = [] then "\x7b\x7d"
        else
          "\x7b" ++ ",".intercalate (listed.map fun property =>
            " " ++ property.1 ++ ": " ++ property.2.text) ++ " \x7d" := by
  refine ⟨(Table.Sorted.ofList properties.entries).entries, Table.Sorted.ordered_ofList _, ?_, ?_⟩
  · intro key value
    rw [Table.Sorted.mem_ofList_iff, Table.lastUnder_of_nodup distinct]
    rfl
  · rw [text_object, bracedText, List.map_map]
    simp only [List.map_eq_nil_iff, Function.comp_def]

/-- Values with the same content have the same displayed form and the same record, and appear alike
on a line.  What was entered into objects in different orders, or over other properties, makes
values with the same content.  An object appears with each of its keys once, in ascending order,
with the displayed form of what stands there; object literals make such objects. -/
theorem History.shown_by_content :
    (∀ left right : Value, left.SameContent right →
      left.text = right.text ∧ ∀ store, left.record store = right.record store) ∧
    (∀ left right : List Value, List.Forall₂ Value.SameContent left right →
      Value.line left = Value.line right) ∧
    (∀ left right : History, left.SameContent right → left.value.SameContent right.value) ∧
    (∀ properties : Table Value, properties.Distinct → ∃ listed : List (String × Value),
      (listed.map Prod.fst).Pairwise (· < ·) ∧
      (∀ key value, (key, value) ∈ listed ↔ properties.find? key = some value) ∧
      (Value.object properties).text =
        if listed = [] then "\x7b\x7d"
        else
          "\x7b" ++ ",".intercalate (listed.map fun property =>
            " " ++ property.1 ++ ": " ++ property.2.text) ++ " \x7d") ∧
    ∀ invoker scope entries span state value later,
      (Phrase.objectLiteral entries span).evaluate invoker scope state = .ok value later →
        ∃ values : List Value, values.length = entries.length ∧
          value = .object (Table.ofList ((entries.map Entry.key).zip values)) ∧
          (Table.ofList ((entries.map Entry.key).zip values)).Distinct := by
  refine ⟨fun left right alike => ⟨alike.text_eq, alike.record_eq⟩, fun left right alike => ?_,
    fun left right alike => alike.values, fun properties => text_of_distinct, ?_⟩
  · unfold Value.line
    rw [alike.map_eq Value.SameContent.text_eq]
  · intro invoker scope entries span state value later gives
    obtain ⟨values, sizes, same⟩ := Phrase.evaluate_objectLiteral_eq_ok gives
    exact ⟨values, sizes, same, Table.distinct_ofList _⟩

namespace History

/-- An object inside an object, with a key entered twice in each. -/
def rewritten : History :=
  .object [("b", .boolean false), ("a", .object [("y", .boolean true), ("x", .null), ("y", .null)]),
    ("b", .null)]

/-- The same object, with its keys entered once and in another order. -/
def direct : History :=
  .object [("a", .object [("x", .null), ("y", .null)]), ("b", .null)]

theorem rewritten_sameContent_direct : rewritten.SameContent direct := by
  have inner : SameContent (.object [("y", .boolean true), ("x", .null), ("y", .null)])
      (.object [("x", .null), ("y", .null)]) := by
    refine .object (fun key => ?_) (fun key first second onLeft onRight => ?_)
    · by_cases isY : key = "y" <;> by_cases isX : key = "x" <;>
        simp [Table.lastUnder, Table.seek, isY, isX]
    · by_cases isY : key = "y"
      · simp [Table.lastUnder, Table.seek, isY] at onLeft onRight
        rw [← onLeft, ← onRight]
        exact .same .null
      · simp [Table.lastUnder, Table.seek, isY] at onLeft onRight
        rw [← onLeft.2, ← onRight.2]
        exact .same .null
  refine .object (fun key => ?_) (fun key first second onLeft onRight => ?_)
  · by_cases isB : key = "b" <;> by_cases isA : key = "a" <;>
      simp [Table.lastUnder, Table.seek, isB, isA]
  · by_cases isB : key = "b"
    · simp [Table.lastUnder, Table.seek, isB] at onLeft onRight
      rw [← onLeft, ← onRight]
      exact .same .null
    · simp [Table.lastUnder, Table.seek, isB] at onLeft onRight
      rw [← onLeft.2, ← onRight.2]
      exact inner

/-- The two objects keep their properties in different orders and are displayed alike. -/
theorem rewritten_shown_as_direct :
    rewritten.SameContent direct ∧
      rewritten.value =
        .object ⟨[("b", .null), ("a", .object ⟨[("y", .null), ("x", .null)]⟩)]⟩ ∧
      direct.value = .object ⟨[("a", .object ⟨[("x", .null), ("y", .null)]⟩), ("b", .null)]⟩ ∧
      rewritten.value.text = direct.value.text ∧
      direct.value.text = "\x7b a: \x7b x: null, y: null \x7d, b: null \x7d" := by
  obtain ⟨shown, _, values, _⟩ := shown_by_content
  have alike := values rewritten direct rewritten_sameContent_direct
  exact ⟨rewritten_sameContent_direct, rfl, rfl, (shown _ _ alike).1, by decide⟩

end History

end Value

end NanoScript
