import NanoScript.Proofs.Phrase.Occurrence

/-!
Contract: which names a phrase uses that it does not declare itself.

Owns:
- the name that a statement declares for the statements behind it;
- the names that are used in a phrase, at any depth, without a declaration in the phrase that is in
  force at the use;
- well-scoped programs, which use no such names but those that every program may use.

A declaration is in force in the statements behind it in its list, function bodies in them included.
A function is also in force in its own body, and so are its parameters.  A name behind a dot is a
key and no use of a name.
-/

namespace NanoScript

/-- The names that a statement declares for the statements behind it. -/
def Phrase.declaredNames : Phrase → List String
  | .variableDeclaration name .. => [name]
  | .functionDeclaration name .. => [name]
  | _ => []

mutual

/-- The names that a phrase uses without a declaration in it that is in force. -/
def Phrase.freeNames : Phrase → List String
  | .program body _ => Phrase.blockFreeNames body
  | .variableDeclaration _ (some value) _ _ => value.freeNames
  | .variableDeclaration _ none _ _ => []
  | .functionDeclaration name parameters body _ =>
      (Phrase.blockFreeNames body).filter fun used => used ∉ name :: parameters
  | .identifier name _ => [name]
  | .numericLiteral _ _ => []
  | .binary left _ right _ => left.freeNames ++ right.freeNames
  | .assignment target value _ => target.freeNames ++ value.freeNames
  | .objectLiteral entries _ => Entry.allFreeNames entries
  | .call callee arguments _ => callee.freeNames ++ Phrase.allFreeNames arguments
  | .member object property computed _ =>
      object.freeNames ++ if computed then property.freeNames else []

/-- The names that statements use without a declaration in them that is in force. -/
def Phrase.blockFreeNames : List Phrase → List String
  | [] => []
  | statement :: rest =>
      statement.freeNames ++
        (Phrase.blockFreeNames rest).filter fun used => used ∉ statement.declaredNames

/-- The names that phrases use, none of them behind another, without a declaration in force. -/
def Phrase.allFreeNames : List Phrase → List String
  | [] => []
  | phrase :: rest => phrase.freeNames ++ Phrase.allFreeNames rest

/-- The names that entries use without a declaration in force.  A key alone is a use of its name. -/
def Entry.allFreeNames : List Entry → List String
  | [] => []
  | .shorthand key _ :: rest => key :: Entry.allFreeNames rest
  | .keyed _ value _ :: rest => value.freeNames ++ Entry.allFreeNames rest

end

/-- The names that every program may use. -/
def Phrase.commonNames : List String :=
  ["true", "false", "null", "print"]

/-- Each use of a name in a program is of a name that every program may use, or has a declaration in
force. -/
def Phrase.WellScoped (program : Phrase) : Prop :=
  ∀ name ∈ program.freeNames, name ∈ commonNames

instance (program : Phrase) : Decidable program.WellScoped :=
  inferInstanceAs (Decidable (∀ name ∈ program.freeNames, name ∈ Phrase.commonNames))

/-! ## Names of parts -/

namespace Phrase

variable {name : String} {whole phrase : Phrase}

@[simp] theorem blockFreeNames_singleton (phrase : Phrase) :
    blockFreeNames [phrase] = phrase.freeNames :=
  List.append_nil _

theorem mem_allFreeNames {phrases : List Phrase} :
    name ∈ allFreeNames phrases ↔ ∃ phrase ∈ phrases, name ∈ phrase.freeNames := by
  induction phrases with
  | nil => simp [allFreeNames]
  | cons head rest inductionHypothesis => simp [allFreeNames, inductionHypothesis]

theorem mem_freeNames_of_name? (named : phrase.name? = some name) : name ∈ phrase.freeNames := by
  cases phrase with
  | identifier other span =>
      cases named
      exact .head _
  | _ => cases named

end Phrase

section

variable {name : String} {entries : List Entry}

/-- The names of the values of entries are names of the entries. -/
theorem Entry.mem_allFreeNames_of_value {value : Phrase}
    (member : value ∈ entries.filterMap Entry.value?) (free : name ∈ value.freeNames) :
    name ∈ Entry.allFreeNames entries := by
  induction entries with
  | nil => cases member
  | cons entry rest inductionHypothesis =>
      cases entry with
      | shorthand key span => exact .tail _ (inductionHypothesis member)
      | keyed key first span =>
          refine List.mem_append.2 ?_
          rcases List.mem_cons.1 member with rfl | inRest
          · exact .inl free
          · exact .inr (inductionHypothesis inRest)

theorem Entry.mem_allFreeNames_of_shorthand {span : Span}
    (member : .shorthand name span ∈ entries) : name ∈ Entry.allFreeNames entries := by
  induction entries with
  | nil => cases member
  | cons entry rest inductionHypothesis =>
      rcases List.mem_cons.1 member with rfl | inRest
      · exact .head _
      · cases entry with
        | shorthand key span => exact .tail _ (inductionHypothesis inRest)
        | keyed key first span => exact List.mem_append_right _ (inductionHypothesis inRest)

/-- Only a list of statements puts a declaration in force for what is evaluated with it. -/
theorem Phrase.mem_freeNames_of_evaluated {whole phrase : Phrase}
    (noProgram : whole.kind ≠ .program) (member : phrase ∈ whole.evaluated)
    (free : name ∈ phrase.freeNames) : name ∈ whole.freeNames := by
  cases whole with
  | program body span => exact absurd rfl noProgram
  | variableDeclaration declared value constant span =>
      cases value with
      | none => cases member
      | some value =>
          rw [List.mem_singleton.1 member] at free
          exact free
  | functionDeclaration declared parameters body span => cases member
  | identifier used span => cases member
  | numericLiteral value span => cases member
  | binary left operator right span =>
      refine List.mem_append.2 ?_
      rcases List.mem_cons.1 member with rfl | atRight
      · exact .inl free
      · exact .inr (List.mem_singleton.1 atRight ▸ free)
  | assignment target value span =>
      rw [List.mem_singleton.1 member] at free
      exact List.mem_append_right _ free
  | objectLiteral entries span => exact Entry.mem_allFreeNames_of_value member free
  | call callee arguments span =>
      refine List.mem_append.2 ?_
      rcases List.mem_cons.1 member with rfl | inArguments
      · exact .inl free
      · exact .inr (Phrase.mem_allFreeNames.2 ⟨phrase, inArguments, free⟩)
  | member object property computed span =>
      refine List.mem_append.2 ?_
      cases computed with
      | false => exact .inl (List.mem_singleton.1 member ▸ free)
      | true =>
          rcases List.mem_cons.1 member with rfl | atProperty
          · exact .inl free
          · exact .inr (List.mem_singleton.1 atProperty ▸ free)

end

/-- A name of a statement's rest is declared by the statement or free in the whole list. -/
theorem Phrase.mem_blockFreeNames_cons {name : String} {statement : Phrase} {rest : List Phrase}
    (inRest : name ∈ blockFreeNames rest) :
    name ∈ statement.declaredNames ∨ name ∈ blockFreeNames (statement :: rest) := by
  by_cases declared : name ∈ statement.declaredNames
  · exact .inl declared
  · refine .inr (List.mem_append_right _ (List.mem_filter.2 ⟨inRest, decide_eq_true declared⟩))

end NanoScript
