import NanoScript.Proofs.Reprinting.Expression

/-!
Contract: a derivation that stands for the statements whose words its tokens are puts everything
where the written form needs it.

Owns:
- how deep a phrase leans to the left, which tells a phrase from what it is the first part of;
- the recovery of statements and of lists of statements.

The words of an expression do not show where it ends, so that a derivation could take what stands
behind it for its continuation.  It would then stand for another phrase than the statement.
-/

namespace NanoScript

/-! ## Leaning to the left -/

namespace Phrase

/-- How many phrases begin with the first name, number or object literal of a phrase, that one left
out. -/
def leftDepth : Phrase → Nat
  | .binary left _ _ _ => left.leftDepth + 1
  | .assignment target _ _ => target.leftDepth + 1
  | .call callee _ _ => callee.leftDepth + 1
  | .member object _ _ _ => object.leftDepth + 1
  | _ => 0

theorem leftDepth_rewritten {literal : Number → Phrase}
    (leaves : ∀ value, (literal value).leftDepth = 0) (phrase : Phrase) :
    (phrase.rewritten literal).leftDepth = phrase.leftDepth := by
  match phrase with
  | .binary left operator right span => exact congrArg (· + 1) (leftDepth_rewritten leaves left)
  | .assignment target value span => exact congrArg (· + 1) (leftDepth_rewritten leaves target)
  | .call callee arguments span => exact congrArg (· + 1) (leftDepth_rewritten leaves callee)
  | .member object property computed span =>
      exact congrArg (· + 1) (leftDepth_rewritten leaves object)
  | .numericLiteral value span => exact leaves value
  | .variableDeclaration name none constant span => rfl
  | .variableDeclaration name (some value) constant span => rfl
  | .program .. | .functionDeclaration .. | .identifier .. | .objectLiteral .. => rfl

@[simp] theorem leftDepth_bare (phrase : Phrase) : phrase.bare.leftDepth = phrase.leftDepth :=
  leftDepth_rewritten (fun _ => rfl) phrase

@[simp] theorem leftDepth_shown (phrase : Phrase) : phrase.shown.leftDepth = phrase.leftDepth := by
  refine leftDepth_rewritten (fun value => ?_) phrase
  unfold shownNumber
  split <;> rfl

end Phrase

namespace Grammar

open Reading Token Word

/-! ## Every link of a spine leans the phrase further -/

/-- How many member accesses there are. -/
def MemberTail.length : MemberTail → Nat
  | .done => 0
  | .named _ _ rest => rest.length + 1
  | .computed _ _ _ rest => rest.length + 1

/-- How many calls there are. -/
def CallTail.length : CallTail → Nat
  | .done => 0
  | .more _ rest => rest.length + 1

/-- How many multiplicative operators there are. -/
def ProductTail.length : ProductTail → Nat
  | .done => 0
  | .more _ _ rest => rest.length + 1

/-- How many additive operators there are. -/
def SumTail.length : SumTail → Nat
  | .done => 0
  | .more _ _ rest => rest.length + 1

theorem MemberTail.leftDepth_phrase (tail : MemberTail) (start : Phrase) :
    (tail.phrase start).leftDepth = start.leftDepth + tail.length := by
  cases tail with
  | done => rfl
  | named dot name rest =>
      rw [MemberTail.phrase, rest.leftDepth_phrase, MemberTail.length, Phrase.leftDepth]
      omega
  | computed opening property closing rest =>
      rw [MemberTail.phrase, rest.leftDepth_phrase, MemberTail.length, Phrase.leftDepth]
      omega
termination_by structural tail

theorem CallTail.leftDepth_phrase (tail : CallTail) (start : Phrase) :
    (tail.phrase start).leftDepth = start.leftDepth + tail.length := by
  cases tail with
  | done => rfl
  | more list rest =>
      rw [CallTail.phrase, rest.leftDepth_phrase, CallTail.length, Phrase.leftDepth]
      omega
termination_by structural tail

theorem ProductTail.leftDepth_phrase (tail : ProductTail) (start : Phrase) :
    (tail.phrase start).leftDepth = start.leftDepth + tail.length := by
  cases tail with
  | done => rfl
  | more mark right rest =>
      rw [ProductTail.phrase, rest.leftDepth_phrase, ProductTail.length, Phrase.ofOperands,
        Phrase.leftDepth]
      omega
termination_by structural tail

theorem SumTail.leftDepth_phrase (tail : SumTail) (start : Phrase) :
    (tail.phrase start).leftDepth = start.leftDepth + tail.length := by
  cases tail with
  | done => rfl
  | more mark right rest =>
      rw [SumTail.phrase, rest.leftDepth_phrase, SumTail.length, Phrase.ofOperands,
        Phrase.leftDepth]
      omega
termination_by structural tail

/-- How many links a spine has. -/
def Spine.length (spine : Spine) : Nat :=
  spine.chain.members.length + spine.chain.calls.length + spine.products.length + spine.sums.length

theorem Spine.leftDepth_phrase (spine : Spine) (start : Phrase) :
    (spine.phrase start).leftDepth = start.leftDepth + spine.length := by
  obtain ⟨⟨members, calls⟩, products, sums⟩ := spine
  simp only [Spine.phrase, Chain.phrase, SumTail.leftDepth_phrase, ProductTail.leftDepth_phrase,
    CallTail.leftDepth_phrase, MemberTail.leftDepth_phrase, Spine.length]
  omega

theorem Spine.eq_done_of_length {spine : Spine} (empty : spine.length = 0) : spine = .done := by
  obtain ⟨⟨members, calls⟩, products, sums⟩ := spine
  simp only [Spine.length, Nat.add_eq_zero_iff] at empty
  obtain ⟨⟨⟨noMembers, noCalls⟩, noProducts⟩, noSums⟩ := empty
  cases members <;> cases noMembers
  cases calls <;> cases noCalls
  cases products <;> cases noProducts
  cases sums <;> cases noSums
  rfl

/-! ## Statements -/

section

variable {phrase : Phrase} {after : List Token} {rest : List Word}

/-- An expression that stands for a phrase and whose tokens begin with the words of the phrase ends
where the words do. -/
theorem Expression.recovered_of_alike (recovered : Recovered phrase) (expression : Expression)
    (same : words (expression.tokens ++ after) = phrase.words ++ rest)
    (alike : expression.phrase.bare = phrase.bare) (stops : expression.StopsBefore after) :
    phrase.WellPlaced ∧ expression.phrase.bare = phrase.shown ∧ words after = rest ∧
      (expression.EndsInLiteral → phrase.kind = .objectLiteral) := by
  have kinds := congrArg Phrase.kind alike
  have depths := congrArg Phrase.leftDepth alike
  rw [Phrase.kind_bare, Phrase.kind_bare] at kinds
  rw [Phrase.leftDepth_bare, Phrase.leftDepth_bare] at depths
  cases expression with
  | plain whole =>
      cases whole with
      | literal opening entries closing =>
          rcases recovered.inLiteral opening entries closing after rest same with
            ⟨isLiteral, placed, shown, remains⟩ | ⟨notLiteral, _⟩
          · exact ⟨placed, shown, remains, fun _ => isLiteral⟩
          · exact absurd kinds.symm notLiteral
      | sum sum =>
          obtain ⟨⟨placed, _⟩, start, spine, startSame, wholeSame, remains⟩ :=
            sum.recovered recovered.inCall same stops.1
          have startDepth := congrArg Phrase.leftDepth startSame
          rw [Phrase.leftDepth_bare, Phrase.leftDepth_shown] at startDepth
          change sum.phrase.leftDepth = _ at depths
          rw [← wholeSame, spine.leftDepth_phrase] at depths
          cases Spine.eq_done_of_length (by omega : spine.length = 0)
          refine ⟨placed, ?_, remains, False.elim⟩
          change sum.phrase.bare = phrase.shown
          rw [← wholeSame]
          exact startSame
  | assignment target equals value =>
      rw [Expression.tokens, List.append_assoc] at same
      cases target with
      | literal opening entries closing =>
          rcases recovered.inLiteral opening entries closing _ rest same with
            ⟨isLiteral, _⟩ | ⟨_, continues⟩
          · rw [← kinds] at isLiteral
            cases isLiteral
          · change continuesCall equals.token.kind = true at continues
            rw [equals.ofKind] at continues
            cases continues
      | sum sum =>
          obtain ⟨_, start, spine, startSame, wholeSame, _⟩ :=
            sum.recovered recovered.inCall same (stopsSum_of_equals equals.ofKind)
          have startDepth := congrArg Phrase.leftDepth startSame
          rw [Phrase.leftDepth_bare, Phrase.leftDepth_shown] at startDepth
          change sum.phrase.leftDepth + 1 = _ at depths
          rw [← wholeSame, spine.leftDepth_phrase] at depths
          omega

/-- A derivation of a statement that stands for a phrase and whose tokens begin with the words of
the phrase ends where the words do, and before a parenthesis only if it is a declaration or an
object literal. -/
def RecoveredAsStatement (phrase : Phrase) : Prop :=
  ∀ (statement : Statement) (after : List Token) (rest : List Word),
    words (statement.tokens ++ after) = phrase.words ++ rest →
    statement.phrase.bare = phrase.bare → statement.Separated →
    statement.MayPrecede (nextKind after) → mayFollowStatement (nextKind after) = true →
    mayFollowStatement (firstKind rest) = true →
      phrase.WellPlaced ∧ statement.phrase.bare = phrase.shown ∧ words after = rest ∧
        (statement.MayPrecede .openParen → phrase.isDeclaration = false →
          phrase.kind = .objectLiteral)

theorem Statement.keyword?_eq_none {statement : Statement}
    (starts : startsExpression (nextKind (statement.tokens ++ after)) = true) :
    statement.keyword? = none := by
  cases keyword : statement.keyword? with
  | none => rfl
  | some kind =>
      obtain ⟨startsWith, noExpression⟩ := nextKind_of_keyword? keyword after
      rw [startsWith, noExpression] at starts
      cases starts

theorem Statement.keyword?_ne_none {statement : Statement} (after : List Token)
    (starts : startsExpression (nextKind (statement.tokens ++ after)) = false) :
    statement.keyword? ≠ none := by
  intro noKeyword
  rw [startsExpression_of_keyword? noKeyword after] at starts
  cases starts

theorem recoveredAsStatement_of_isExpression (shape : phrase.IsExpression) :
    RecoveredAsStatement phrase := by
  intro statement after rest same alike _ may follows restFollows
  have recovered := recovered_of_isExpression shape
  have starts := shape.startsExpression_append rest
  rw [← same, ← nextKind_eq_firstKind] at starts
  have noKeyword := Statement.keyword?_eq_none starts
  cases statement with
  | terminated value semicolon =>
      rw [Statement.tokens, List.append_assoc] at same
      obtain ⟨_, _, remains, _⟩ := value.recovered_of_alike recovered same alike
        (value.stopsBefore_terminal semicolon after rfl)
      rw [← remains, ← nextKind_eq_firstKind] at restFollows
      exact absurd restFollows (not_mayFollowStatement_semicolon semicolon after)
  | unterminated value =>
      obtain ⟨placed, shown, remains, literal⟩ := value.recovered_of_alike recovered same alike
        (value.stopsBefore_of_mayFollow follows may)
      exact ⟨placed, shown, remains, fun mayStand _ => literal (mayStand rfl)⟩
  | _ => cases noKeyword

theorem recoveredAsStatement_declaration (name : String) (span : Span) :
    RecoveredAsStatement (.variableDeclaration name none false span) := by
  intro statement after rest same alike _ _ _ _
  have keyword : statement.keyword? ≠ none := by
    refine Statement.keyword?_ne_none after ?_
    rw [nextKind_eq_firstKind, same]
    rfl
  cases statement with
  | declaration keyword derived semicolon =>
      obtain ⟨_, remains⟩ := List.cons.inj same
      obtain ⟨nameSame, remains⟩ := List.cons.inj remains
      have text : derived.token.text = name := congrArg Word.text nameSame
      refine ⟨wellPlaced_of_leaf rfl rfl rfl trivial trivial, ?_, (List.cons.inj remains).2,
        by simp [Phrase.isDeclaration]⟩
      rw [← text]
      rfl
  | initialized => cases alike
  | function =>
      have kinds := congrArg Phrase.kind alike
      cases kinds
  | terminated | unterminated => exact absurd rfl keyword

theorem recoveredAsStatement_initialized (name : String) {value : Phrase}
    (shape : value.IsExpression) (constant : Bool) (span : Span) :
    RecoveredAsStatement (.variableDeclaration name (some value) constant span) := by
  intro statement after rest same alike _ _ _ _
  have keyword : statement.keyword? ≠ none := by
    refine Statement.keyword?_ne_none after ?_
    rw [nextKind_eq_firstKind, same]
    cases constant <;> rfl
  cases statement with
  | declaration => cases alike
  | initialized derivedConstant keyword derived equals assigned semicolon =>
      simp only [Statement.tokens, Phrase.words, List.cons_append, List.append_assoc] at same
      obtain ⟨_, remains⟩ := List.cons.inj same
      obtain ⟨nameSame, remains⟩ := List.cons.inj remains
      obtain ⟨_, remains⟩ := List.cons.inj remains
      have text : derived.token.text = name := congrArg Word.text nameSame
      have constants : derivedConstant = constant := by
        injection alike
      have closes : endsExpression (nextKind (semicolon.token :: after)) = true := by
        rw [nextKind_cons, semicolon.ofKind]
        rfl
      obtain ⟨placed, shown, remains⟩ :=
        assigned.recovered (recovered_of_isExpression shape) remains closes rfl
      refine ⟨.of_parts trivial trivial rfl (List.forall_mem_singleton.2 placed) rfl, ?_,
        (List.cons.inj remains).2,
        by simp [Phrase.isDeclaration]⟩
      subst constants
      rw [← text]
      exact congrArg (Phrase.variableDeclaration _ · _ _) (congrArg some shown)
  | function =>
      have kinds := congrArg Phrase.kind alike
      cases kinds
  | terminated | unterminated => exact absurd rfl keyword

/-! ## Lists of statements -/

theorem mayFollowStatement_of_startsStatement {kind : Token.Kind}
    (starts : startsStatement kind = true) : mayFollowStatement kind = true := by
  unfold mayFollowStatement
  rw [starts]
  rfl

theorem mayFollowStatement_words {block : Block} {phrases : List Phrase}
    (shapes : ∀ statement ∈ phrases, statement.IsStatement)
    (ends : block.endsBefore (firstKind rest) = true) :
    mayFollowStatement (firstKind ((phrases.map Phrase.words).flatten ++ rest)) = true := by
  cases phrases with
  | nil => exact mayFollowStatement_of_endsBefore ends
  | cons first others =>
      rw [List.map_cons, List.flatten_cons, List.append_assoc]
      exact mayFollowStatement_of_startsStatement
        ((shapes first List.mem_cons_self).firstKind_append _).1

/-- Derivations of statements that stand for the statements whose words their tokens are end where
the words do, and every statement may stand before the next one. -/
theorem Statements.recovered (derivation : Statements) {phrases : List Phrase} (block : Block)
    (shapes : ∀ statement ∈ phrases, statement.IsStatement)
    (recovered : ∀ statement ∈ phrases, RecoveredAsStatement statement)
    (same : words (derivation.tokens ++ after) = (phrases.map Phrase.words).flatten ++ rest)
    (alike : derivation.phrases.map Phrase.bare = phrases.map Phrase.bare)
    (separated : derivation.Separated) (ends : block.endsBefore (nextKind after) = true)
    (restEnds : block.endsBefore (firstKind rest) = true) :
    (∀ statement ∈ phrases, statement.WellPlaced) ∧ phrases.IsChain Phrase.MayStandBefore ∧
      derivation.phrases.map Phrase.bare = phrases.map Phrase.shown ∧ words after = rest := by
  match derivation, phrases with
  | .none, [] =>
      refine ⟨?_, .nil, rfl, same⟩
      intro statement member
      cases member
  | .none, _ :: _ => cases alike
  | .more .., [] => cases alike
  | .more first others, phrase :: phrases =>
      obtain ⟨firstSeparated, mayPrecede, othersSeparated⟩ := separated
      obtain ⟨firstAlike, othersAlike⟩ := List.cons.inj alike
      rw [Statements.tokens, List.append_assoc, List.map_cons, List.flatten_cons,
        List.append_assoc] at same
      have othersShapes : ∀ statement ∈ phrases, statement.IsStatement :=
        fun statement member => shapes statement (List.mem_cons_of_mem phrase member)
      have mayPrecede := first.mayPrecede_append mayPrecede ends
      obtain ⟨placed, shown, remains, last⟩ := recovered phrase List.mem_cons_self first _ _ same
        firstAlike firstSeparated mayPrecede (others.mayFollow ends)
        (mayFollowStatement_words othersShapes restEnds)
      rw [nextKind_eq_firstKind, remains] at mayPrecede
      obtain ⟨othersPlaced, chain, othersShown, remains⟩ := others.recovered block othersShapes
        (fun statement member => recovered statement (List.mem_cons_of_mem phrase member)) remains
        othersAlike othersSeparated ends restEnds
      refine ⟨List.forall_mem_cons.2 ⟨placed, othersPlaced⟩, ?_, ?_, remains⟩
      · refine List.isChain_cons.2 ⟨?_, chain⟩
        intro second isNext isExpression notLiteral
        cases phrases with
        | nil => cases isNext
        | cons next phrases =>
            cases isNext
            cases opens : second.opensWithParenthesis with
            | false => rfl
            | true =>
                rw [List.map_cons, List.flatten_cons, List.append_assoc,
                  ((othersShapes second List.mem_cons_self).firstKind_append _).2.1 opens]
                  at mayPrecede
                exact absurd (last mayPrecede isExpression) notLiteral
      · rw [Statements.phrases, List.map_cons, List.map_cons, shown, othersShown]
termination_by structural derivation

theorem recoveredAsStatement_function (name : String) (parameters : List String)
    {body : List Phrase} (areNames : ∀ parameter ∈ parameters, IsName parameter)
    (shapes : ∀ statement ∈ body, statement.IsStatement)
    (recovered : ∀ statement ∈ body, RecoveredAsStatement statement) (span : Span) :
    RecoveredAsStatement (.functionDeclaration name parameters body span) := by
  intro statement after rest same alike separated _ _ _
  have keyword : statement.keyword? ≠ none := by
    refine Statement.keyword?_ne_none after ?_
    rw [nextKind_eq_firstKind, same]
    rfl
  cases statement with
  | declaration =>
      have kinds := congrArg Phrase.kind alike
      cases kinds
  | initialized =>
      have kinds := congrArg Phrase.kind alike
      cases kinds
  | terminated | unterminated => exact absurd rfl keyword
  | function keyword derived list opening statements closing =>
      simp only [Statement.tokens, Phrase.words_functionDeclaration, List.cons_append,
        List.append_assoc] at same
      simp only [Statement.phrase, Phrase.bare, Phrase.rewritten_functionDeclaration,
        Phrase.functionDeclaration.injEq, and_true] at alike
      obtain ⟨nameSame, namesSame, bodySame⟩ := alike
      have remains := (List.cons.inj (List.cons.inj same).2).2
      -- The parameters are read as expressions that are names.
      have asNames : (parameters.map fun parameter => [ofName parameter]) =
          (parameters.map fun parameter => Phrase.identifier parameter (Span.empty 0)).map
            Phrase.words := by
        rw [List.map_map]
        rfl
      rw [asNames] at remains
      obtain ⟨_, _, remains⟩ := list.list.recovered
        (by
          intro argument member
          obtain ⟨parameter, isParameter, rfl⟩ := List.mem_map.1 member
          exact .identifier (areNames parameter isParameter))
        (by
          intro argument member
          obtain ⟨parameter, _, rfl⟩ := List.mem_map.1 member
          exact recovered_identifier parameter (Span.empty 0))
        remains
      have remains := (List.cons.inj remains).2
      obtain ⟨placed, chain, shown, remains⟩ := statements.recovered .functionBody shapes
        recovered remains bodySame separated (functionBody_endsBefore closing after) rfl
      refine ⟨.intro ⟨trivial, trivial, chain⟩ ?_ placed, ?_, (List.cons.inj remains).2,
        by simp [Phrase.isDeclaration]⟩
      · intro child member
        cases member
      · simp only [Statement.phrase, Phrase.bare, Phrase.shown,
          Phrase.rewritten_functionDeclaration, Phrase.functionDeclaration.injEq, and_true]
        exact ⟨nameSame, namesSame, shown⟩

theorem recoveredAsStatement_of_isStatement (shape : phrase.IsStatement) :
    RecoveredAsStatement phrase := by
  induction shape with
  | declaration _ => exact recoveredAsStatement_declaration _ _
  | initialized _ isExpression => exact recoveredAsStatement_initialized _ isExpression _ _
  | function _ areNames shapes recovered =>
      exact recoveredAsStatement_function _ _ areNames shapes recovered _
  | expression isExpression => exact recoveredAsStatement_of_isExpression isExpression

end

end Grammar

end NanoScript
