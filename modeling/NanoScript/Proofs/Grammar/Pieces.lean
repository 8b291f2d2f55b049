import NanoScript.Proofs.Grammar.Statement
import NanoScript.Proofs.Phrase.Occurrence

/-!
Contract: the tokens that each phrase in a program is formed from.

Owns:
- the relation between tokens and the phrase they form, whatever symbol of the grammar derives it;
- the phrases of derivations are formed from the tokens of the derivations;
- every phrase that occurs in one is formed from tokens that stand side by side among its tokens.

Which symbol derives a phrase matters for reading only.  What holds of every phrase that tokens can
form, such as where its names and its place come from, is proved by cases on this relation.
-/

namespace NanoScript.Grammar

mutual

/-- Tokens form a phrase, with others around them that leave no trace. -/
inductive Forms : List Token → Phrase → Prop
  | name (name : Terminal .identifier) :
      Forms [name.token] (.identifier name.token.text name.token.span)
  | numeral (numeral : Numeral) :
      Forms [numeral.token] (.numericLiteral numeral.value numeral.token.span)
  | within {tokens : List Token} {phrase : Phrase} (before after : List Token)
      (forms : Forms tokens phrase) : Forms (before ++ (tokens ++ after)) phrase
  | binary {tokens others : List Token} {left right : Phrase} (operator : Operator) (mark : Token)
      (first : Forms tokens left) (second : Forms others right) :
      Forms (tokens ++ mark :: others)
        (.binary left operator right (left.span.merge right.span))
  | assignment {tokens others : List Token} {target value : Phrase} (equals : Token)
      (first : Forms tokens target) (second : Forms others value) :
      Forms (tokens ++ equals :: others)
        (.assignment target value (target.span.merge value.span))
  | objectLiteral {tokens : List Token} {entries : List NanoScript.Entry} (opening closing : Token)
      (form : FormEntries tokens entries) :
      Forms (opening :: (tokens ++ [closing]))
        (.objectLiteral entries (opening.span.merge closing.span))
  | call {tokens others : List Token} {callee : Phrase} {arguments : List Phrase}
      (opening closing : Token) (first : Forms tokens callee) (form : FormAll others arguments) :
      Forms (tokens ++ opening :: (others ++ [closing]))
        (.call callee arguments (callee.span.merge closing.span))
  | named {tokens : List Token} {object : Phrase} (dot : Token) (name : Terminal .identifier)
      (first : Forms tokens object) :
      Forms (tokens ++ [dot, name.token])
        (.member object (.identifier name.token.text name.token.span) false
          (object.span.merge name.token.span))
  | computed {tokens others : List Token} {object property : Phrase} (opening closing : Token)
      (first : Forms tokens object) (second : Forms others property) :
      Forms (tokens ++ opening :: (others ++ [closing]))
        (.member object property true (object.span.merge closing.span))
  | declaration (keyword semicolon : Token) (name : Terminal .identifier) :
      Forms [keyword, name.token, semicolon]
        (.variableDeclaration name.token.text none false (keyword.span.merge semicolon.span))
  | initialized {tokens : List Token} {value : Phrase} (constant : Bool)
      (keyword equals semicolon : Token) (name : Terminal .identifier)
      (forms : Forms tokens value) :
      Forms (keyword :: name.token :: equals :: (tokens ++ [semicolon]))
        (.variableDeclaration name.token.text (some value) constant
          (keyword.span.merge semicolon.span))
  | function {tokens : List Token} {body : List Phrase} (keyword opening closing : Token)
      (name : Terminal .identifier) (listed : List Token) (parameters : List String)
      (form : FormAll tokens body) :
      Forms (keyword :: name.token :: (listed ++ opening :: (tokens ++ [closing])))
        (.functionDeclaration name.token.text parameters body (keyword.span.merge closing.span))

  | program {tokens : List Token} {body : List Phrase} (stop : Nat) (form : FormAll tokens body) :
      Forms tokens (.program body ⟨0, stop⟩)

/-- Tokens form phrases one behind the other, with separators between them. -/
inductive FormAll : List Token → List Phrase → Prop
  | none : FormAll [] []
  | more {tokens rest : List Token} {phrase : Phrase} {phrases : List Phrase}
      (separator : List Token) (first : Forms tokens phrase) (others : FormAll rest phrases) :
      FormAll (separator ++ (tokens ++ rest)) (phrase :: phrases)

/-- Tokens form entries one behind the other, with separators between them. -/
inductive FormEntries : List Token → List NanoScript.Entry → Prop
  | none (trailing : List Token) : FormEntries trailing []
  | shorthand {rest : List Token} {entries : List NanoScript.Entry} (separator : List Token)
      (key : Terminal .identifier) (others : FormEntries rest entries) :
      FormEntries (separator ++ key.token :: rest)
        (.shorthand key.token.text key.token.span :: entries)
  | keyed {tokens rest : List Token} {value : Phrase} {entries : List NanoScript.Entry}
      (separator : List Token) (key : Terminal .identifier) (colon : Token)
      (first : Forms tokens value) (others : FormEntries rest entries) :
      FormEntries (separator ++ key.token :: colon :: (tokens ++ rest))
        (.keyed key.token.text value (key.token.span.merge value.span) :: entries)

end

/-! ## Derivations -/

mutual

theorem Expression.forms (derivation : Expression) :
    Forms derivation.tokens derivation.phrase := by
  match derivation with
  | .plain whole => exact whole.forms
  | .assignment target equals value => exact .assignment equals.token target.forms value.forms
termination_by structural derivation

theorem ObjectLiteral.forms (derivation : ObjectLiteral) :
    Forms derivation.tokens derivation.phrase := by
  match derivation with
  | .literal opening entries closing =>
      exact .objectLiteral opening.token closing.token (entries.forms [])
  | .sum whole => exact whole.forms
termination_by structural derivation

theorem Entries.forms (derivation : Entries) (separator : List Token) :
    FormEntries (separator ++ derivation.tokens) derivation.phrases := by
  match derivation with
  | .none => exact .none _
  | .last entry =>
      have form := entry.forms separator (.none [])
      rw [List.append_nil] at form
      exact form
  | .more entry comma rest => exact entry.forms separator (rest.forms [comma.token])
termination_by structural derivation

theorem Entry.forms (derivation : Entry) (separator : List Token) {rest : List Token}
    {entries : List NanoScript.Entry} (others : FormEntries rest entries) :
    FormEntries (separator ++ (derivation.tokens ++ rest)) (derivation.phrase :: entries) := by
  match derivation with
  | .shorthand key => exact .shorthand separator key others
  | .keyed key colon value => exact .keyed separator key colon.token value.forms others
termination_by structural derivation

theorem Sum.forms (derivation : Sum) : Forms derivation.tokens derivation.phrase := by
  match derivation with
  | .mk first tail => exact tail.forms first.forms
termination_by structural derivation

theorem SumTail.forms (derivation : SumTail) {tokens : List Token} {left : Phrase}
    (forms : Forms tokens left) : Forms (tokens ++ derivation.tokens) (derivation.phrase left) := by
  match derivation with
  | .done =>
      rw [SumTail.tokens, List.append_nil]
      exact forms
  | .more mark right rest =>
      have form := rest.forms (.binary mark.operator mark.token forms right.forms)
      rw [List.append_assoc, List.cons_append] at form
      exact form
termination_by structural derivation

theorem Product.forms (derivation : Product) : Forms derivation.tokens derivation.phrase := by
  match derivation with
  | .mk first tail => exact tail.forms first.forms
termination_by structural derivation

theorem ProductTail.forms (derivation : ProductTail) {tokens : List Token} {left : Phrase}
    (forms : Forms tokens left) : Forms (tokens ++ derivation.tokens) (derivation.phrase left) := by
  match derivation with
  | .done =>
      rw [ProductTail.tokens, List.append_nil]
      exact forms
  | .more mark right rest =>
      have form := rest.forms (.binary mark.operator mark.token forms right.forms)
      rw [List.append_assoc, List.cons_append] at form
      exact form
termination_by structural derivation

theorem Call.forms (derivation : Call) : Forms derivation.tokens derivation.phrase := by
  match derivation with
  | .mk callee tail => exact tail.forms callee.forms
termination_by structural derivation

theorem CallTail.forms (derivation : CallTail) {tokens : List Token} {callee : Phrase}
    (forms : Forms tokens callee) :
    Forms (tokens ++ derivation.tokens) (derivation.phrase callee) := by
  match derivation with
  | .done =>
      rw [CallTail.tokens, List.append_nil]
      exact forms
  | .more (.mk opening arguments closing) rest =>
      have form := rest.forms (.call opening.token closing.token forms arguments.forms)
      rw [List.append_assoc] at form
      exact form
termination_by structural derivation

theorem Arguments.forms (derivation : Arguments) :
    FormAll derivation.tokens derivation.phrases := by
  match derivation with
  | .none => exact .none
  | .some first rest => exact .more [] first.forms rest.forms
termination_by structural derivation

theorem ArgumentsTail.forms (derivation : ArgumentsTail) :
    FormAll derivation.tokens derivation.phrases := by
  match derivation with
  | .done => exact .none
  | .more comma argument rest => exact .more [comma.token] argument.forms rest.forms
termination_by structural derivation

theorem Member.forms (derivation : Member) : Forms derivation.tokens derivation.phrase := by
  match derivation with
  | .mk object tail => exact tail.forms object.forms
termination_by structural derivation

theorem MemberTail.forms (derivation : MemberTail) {tokens : List Token} {object : Phrase}
    (forms : Forms tokens object) :
    Forms (tokens ++ derivation.tokens) (derivation.phrase object) := by
  match derivation with
  | .done =>
      rw [MemberTail.tokens, List.append_nil]
      exact forms
  | .named dot name rest =>
      have form := rest.forms (.named dot.token name forms)
      rw [List.append_assoc] at form
      exact form
  | .computed opening property closing rest =>
      have form := rest.forms (.computed opening.token closing.token forms property.forms)
      rw [List.append_assoc, List.cons_append, List.append_assoc] at form
      exact form
termination_by structural derivation

theorem Operand.forms (derivation : Operand) : Forms derivation.tokens derivation.phrase := by
  match derivation with
  | .name name => exact .name name
  | .number numeral => exact .numeral numeral
  | .group opening value closing => exact .within [opening.token] [closing.token] value.forms
termination_by structural derivation

end

mutual

theorem Statement.forms (derivation : Statement) :
    Forms derivation.tokens derivation.phrase := by
  match derivation with
  | .declaration keyword name semicolon =>
      exact .declaration keyword.token semicolon.token name
  | .initialized constant keyword name equals value semicolon =>
      exact .initialized constant keyword.token equals.token semicolon.token name value.forms
  | .function keyword name parameters opening body closing =>
      exact .function keyword.token opening.token closing.token name parameters.list.tokens
        parameters.names body.forms
  | .terminated value semicolon => exact .within [] [semicolon.token] value.forms
  | .unterminated value => exact value.forms
termination_by structural derivation

theorem Statements.forms (derivation : Statements) :
    FormAll derivation.tokens derivation.phrases := by
  match derivation with
  | .none => exact .none
  | .more first rest => exact .more [] first.forms rest.forms
termination_by structural derivation

end

theorem Program.forms (derivation : Program) (stop : Nat) :
    Forms derivation.tokens (derivation.phrase stop) :=
  .program stop derivation.statements.forms

/-! ## Phrases inside others -/

theorem FormAll.exists_of_mem {tokens : List Token} {phrases : List Phrase}
    (form : FormAll tokens phrases) {phrase : Phrase} (member : phrase ∈ phrases) :
    ∃ inner, inner <:+: tokens ∧ Forms inner phrase := by
  match form with
  | .none => cases member
  | .more separator first others =>
      rcases List.mem_cons.1 member with rfl | inRest
      · exact ⟨_, ⟨separator, _, List.append_assoc ..⟩, first⟩
      · obtain ⟨inner, inside, forms⟩ := others.exists_of_mem inRest
        exact ⟨inner, inside.trans ⟨separator ++ _, [], by simp; rfl⟩, forms⟩
termination_by structural form

theorem FormEntries.exists_of_mem {tokens : List Token} {entries : List NanoScript.Entry}
    (form : FormEntries tokens entries) {phrase : Phrase}
    (member : phrase ∈ entries.filterMap NanoScript.Entry.value?) :
    ∃ inner, inner <:+: tokens ∧ Forms inner phrase := by
  match form with
  | .none _ => cases member
  | .shorthand separator key others =>
      obtain ⟨inner, inside, forms⟩ := others.exists_of_mem member
      exact ⟨inner, inside.trans ⟨separator ++ [key.token], [], by simp⟩, forms⟩
  | .keyed separator key colon first others =>
      rcases List.mem_cons.1 member with rfl | inRest
      · exact ⟨_, ⟨separator ++ [key.token, colon], _, by simp; rfl⟩, first⟩
      · obtain ⟨inner, inside, forms⟩ := others.exists_of_mem inRest
        exact ⟨inner, inside.trans ⟨separator ++ key.token :: colon :: _, [], by simp; rfl⟩, forms⟩
termination_by structural form

/-- What is directly inside a phrase is formed from tokens side by side among its tokens. -/
theorem Forms.exists_of_child {tokens : List Token} {whole : Phrase} (forms : Forms tokens whole)
    {child : Phrase} (member : child ∈ whole.parts ∨ child ∈ whole.body) :
    ∃ inner, inner <:+: tokens ∧ Forms inner child := by
  match forms with
  | .within before after forms =>
      obtain ⟨inner, inside, formsChild⟩ := forms.exists_of_child member
      exact ⟨inner, inside.trans ⟨before, after, List.append_assoc ..⟩, formsChild⟩
  | .name _ => simp [Phrase.parts, Phrase.body] at member
  | .numeral _ => simp [Phrase.parts, Phrase.body] at member
  | .binary operator mark first second =>
      simp only [Phrase.parts, Phrase.body, List.mem_cons, List.not_mem_nil, or_false] at member
      rcases member with rfl | rfl
      · exact ⟨_, (List.prefix_append ..).isInfix, first⟩
      · exact ⟨_, ((List.suffix_cons ..).trans (List.suffix_append ..)).isInfix, second⟩
  | .assignment equals first second =>
      simp only [Phrase.parts, Phrase.body, List.mem_cons, List.not_mem_nil, or_false] at member
      rcases member with rfl | rfl
      · exact ⟨_, (List.prefix_append ..).isInfix, first⟩
      · exact ⟨_, ((List.suffix_cons ..).trans (List.suffix_append ..)).isInfix, second⟩
  | .objectLiteral opening closing form =>
      simp only [Phrase.parts, Phrase.body, List.not_mem_nil, or_false] at member
      obtain ⟨inner, inside, formsChild⟩ := form.exists_of_mem member
      exact ⟨inner, inside.trans ⟨[opening], [closing], rfl⟩, formsChild⟩
  | .call opening closing first form =>
      simp only [Phrase.parts, Phrase.body, List.mem_cons, List.not_mem_nil, or_false] at member
      rcases member with rfl | inArguments
      · exact ⟨_, (List.prefix_append ..).isInfix, first⟩
      · obtain ⟨inner, inside, formsChild⟩ := form.exists_of_mem inArguments
        exact ⟨inner, inside.trans ⟨_ ++ [opening], [closing], by simp; rfl⟩, formsChild⟩
  | .named dot key first =>
      simp only [Phrase.parts, Phrase.body, List.mem_cons, List.not_mem_nil, or_false] at member
      rcases member with rfl | rfl
      · exact ⟨_, (List.prefix_append ..).isInfix, first⟩
      · exact ⟨[key.token], ⟨_ ++ [dot], [], by simp; rfl⟩, .name key⟩
  | .computed opening closing first second =>
      simp only [Phrase.parts, Phrase.body, List.mem_cons, List.not_mem_nil, or_false] at member
      rcases member with rfl | rfl
      · exact ⟨_, (List.prefix_append ..).isInfix, first⟩
      · exact ⟨_, ⟨_ ++ [opening], [closing], by simp; rfl⟩, second⟩
  | .declaration _ _ _ => simp [Phrase.parts, Phrase.body] at member
  | .initialized constant keyword equals semicolon key forms =>
      simp only [Phrase.parts, Phrase.body, Option.toList_some, List.mem_cons, List.not_mem_nil,
        or_false] at member
      subst member
      exact ⟨_, ⟨[keyword, key.token, equals], [semicolon], rfl⟩, forms⟩
  | .function keyword opening closing key listed parameters form =>
      simp only [Phrase.parts, Phrase.body, List.not_mem_nil, false_or] at member
      obtain ⟨inner, inside, formsChild⟩ := form.exists_of_mem member
      refine ⟨inner, inside.trans ?_, formsChild⟩
      exact ⟨keyword :: key.token :: (listed ++ [opening]), [closing], by simp⟩
  | .program stop form =>
      simp only [Phrase.parts, Phrase.body, List.not_mem_nil, or_false] at member
      exact form.exists_of_mem member
termination_by structural forms

/-- Every phrase that occurs in one is formed from tokens side by side among its tokens. -/
theorem Forms.exists_of_occursIn {part whole : Phrase} (occurs : part.OccursIn whole)
    {tokens : List Token} (forms : Forms tokens whole) :
    ∃ inner, inner <:+: tokens ∧ Forms inner part := by
  induction occurs generalizing tokens with
  | here => exact ⟨tokens, List.infix_refl tokens, forms⟩
  | inPart member _ inductionHypothesis =>
      obtain ⟨middle, inside, formsChild⟩ := forms.exists_of_child (.inl member)
      obtain ⟨inner, further, formsPart⟩ := inductionHypothesis formsChild
      exact ⟨inner, further.trans inside, formsPart⟩
  | inBody member _ inductionHypothesis =>
      obtain ⟨middle, inside, formsChild⟩ := forms.exists_of_child (.inr member)
      obtain ⟨inner, further, formsPart⟩ := inductionHypothesis formsChild
      exact ⟨inner, further.trans inside, formsPart⟩

/-! ## Names -/

/-- A token is a name with its place. -/
def Spells (name : String) (span : Span) (token : Token) : Prop :=
  token.kind = .identifier ∧ token.text = name ∧ token.span = span

/-- The names that a phrase itself uses are tokens with their places, and what stands behind a dot
is a name. -/
def NamesAmong (tokens : List Token) : Phrase → Prop
  | .identifier name span => ∃ token ∈ tokens, Spells name span token
  | .objectLiteral entries _ =>
      ∀ key span, .shorthand key span ∈ entries → ∃ token ∈ tokens, Spells key span token
  | .member _ property computed _ => computed = false → property.name?.isSome
  | _ => True

theorem NamesAmong.mono {tokens others : List Token} {phrase : Phrase}
    (names : NamesAmong tokens phrase) (among : ∀ token ∈ tokens, token ∈ others) :
    NamesAmong others phrase := by
  cases phrase with
  | identifier name span =>
      obtain ⟨token, member, spells⟩ := names
      exact ⟨token, among token member, spells⟩
  | objectLiteral entries span =>
      intro key place listed
      obtain ⟨token, member, spells⟩ := names key place listed
      exact ⟨token, among token member, spells⟩
  | member object property computed span => exact names
  | _ => trivial

theorem FormEntries.exists_shorthand {tokens : List Token} {entries : List NanoScript.Entry}
    (form : FormEntries tokens entries) {key : String} {span : Span}
    (listed : .shorthand key span ∈ entries) : ∃ token ∈ tokens, Spells key span token := by
  match form with
  | .none _ => cases listed
  | .shorthand separator name others =>
      rcases List.mem_cons.1 listed with same | inRest
      · cases same
        exact ⟨name.token, by simp, name.ofKind, rfl, rfl⟩
      · obtain ⟨token, member, spells⟩ := others.exists_shorthand inRest
        exact ⟨token, by simp [member], spells⟩
  | .keyed separator name colon first others =>
      rcases List.mem_cons.1 listed with same | inRest
      · cases same
      · obtain ⟨token, member, spells⟩ := others.exists_shorthand inRest
        exact ⟨token, by simp [member], spells⟩
termination_by structural form

theorem Forms.names {tokens : List Token} {phrase : Phrase} (forms : Forms tokens phrase) :
    NamesAmong tokens phrase := by
  match forms with
  | .within before after forms =>
      refine forms.names.mono fun token member => ?_
      exact List.mem_append_right before (List.mem_append_left after member)
  | .name key => exact ⟨key.token, List.mem_singleton.2 rfl, key.ofKind, rfl, rfl⟩
  | .objectLiteral opening closing form =>
      intro key span listed
      obtain ⟨token, member, spells⟩ := form.exists_shorthand listed
      exact ⟨token, List.mem_cons_of_mem _ (List.mem_append_left _ member), spells⟩
  | .named .. => exact fun _ => rfl
  | .computed .. => exact nofun
  | .numeral _ => trivial
  | .binary .. => trivial
  | .assignment .. => trivial
  | .call .. => trivial
  | .declaration .. => trivial
  | .initialized .. => trivial
  | .function .. => trivial
  | .program .. => trivial
termination_by structural forms

end NanoScript.Grammar
