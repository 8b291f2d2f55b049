import NanoScript.Proofs.Grammar.Follow

/-!
Contract: a list of tokens has at most one derivation.

Two derivations of one symbol may start the same list of tokens and leave different rests.  If
neither can go on in its rest, then they are one derivation, and the rests are one rest.

This holds for every symbol of the grammar, by induction on one of the derivations.  A derivation
that ends where the other goes on is refuted by the token at which they part: the one stops there,
and the other does not.
-/

namespace NanoScript.Grammar

open Reading

/-! ## Tokens that differ -/

/-- Lists of tokens that start with different kinds of tokens are different. -/
theorem absurd_of_kinds {left right : List Token} {leftKind rightKind : Token.Kind} {goal : Prop}
    (same : left = right) (ofLeft : nextKind left = leftKind) (ofRight : nextKind right = rightKind)
    (differ : leftKind ≠ rightKind) : goal :=
  absurd (ofLeft.symm.trans ((congrArg nextKind same).trans ofRight)) differ

theorem Terminal.of_cons {kind : Token.Kind} {left right : Terminal kind}
    {after behind : List Token} (same : left.token :: after = right.token :: behind) :
    left = right ∧ after = behind := by
  obtain ⟨first, others⟩ := List.cons.inj same
  exact ⟨Terminal.ext first, others⟩

theorem OperatorMark.of_cons {level : Operator → Bool} {left right : OperatorMark level}
    {after behind : List Token} (same : left.token :: after = right.token :: behind) :
    left = right ∧ after = behind := by
  obtain ⟨first, others⟩ := List.cons.inj same
  exact ⟨OperatorMark.ext first, others⟩

/-- No sum stops before an operator of a sum. -/
theorem StopsSum.not_mark {mark : OperatorMark Operator.isAdditive} {rest : List Token} :
    ¬ StopsSum (mark.token :: rest) := by
  intro stops
  have none := stops.2
  rw [mark.nextOperator?] at none
  cases none

/-- No product stops before an operator of a product. -/
theorem StopsProduct.not_mark {mark : OperatorMark Operator.isMultiplicative}
    {rest : List Token} : ¬ StopsProduct (mark.token :: rest) := by
  intro stops
  have none := stops.2
  rw [mark.nextOperator?, Option.filter_some, mark.onLevel] at none
  cases none

/-- The tokens that end an entry. -/
def endsEntry (kind : Token.Kind) : Bool :=
  kind = .comma || kind = .closeBrace

theorem endsExpression_of_endsEntry {kind : Token.Kind} (ends : endsEntry kind = true) :
    endsExpression kind = true := by
  cases kind <;> first | rfl | cases ends

theorem endsEntry_of_closeBrace {tokens : List Token} (closes : nextKind tokens = .closeBrace) :
    endsEntry (nextKind tokens) = true := by
  rw [closes]
  rfl

theorem endsEntry_comma (comma : Terminal .comma) (rest : List Token) :
    endsEntry (nextKind (comma.token :: rest)) = true := by
  rw [nextKind_cons, comma.ofKind]
  rfl

/-! ## Expressions -/

mutual

theorem Expression.unambiguous (left right : Expression) {after behind : List Token}
    (same : left.tokens ++ after = right.tokens ++ behind)
    (leftStops : left.StopsBefore after) (rightStops : right.StopsBefore behind) :
    left = right ∧ after = behind := by
  match left, right with
  | .plain whole, .plain other =>
      obtain ⟨rfl, rests⟩ := whole.unambiguous other same leftStops.1 rightStops.1
      exact ⟨rfl, rests⟩
  | .plain whole, .assignment target equals value =>
      rw [Expression.tokens, Expression.tokens, List.append_assoc] at same
      obtain ⟨_, rests⟩ := whole.unambiguous target same leftStops.1
        (target.stopsBefore_of_equals equals.ofKind)
      rw [rests] at leftStops
      exact absurd equals.ofKind leftStops.2
  | .assignment target equals value, .plain whole =>
      rw [Expression.tokens, Expression.tokens, List.append_assoc] at same
      obtain ⟨_, rests⟩ := target.unambiguous whole same
        (target.stopsBefore_of_equals equals.ofKind) rightStops.1
      rw [← rests] at rightStops
      exact absurd equals.ofKind rightStops.2
  | .assignment target equals value, .assignment otherTarget otherEquals otherValue =>
      rw [Expression.tokens, Expression.tokens, List.append_assoc, List.append_assoc] at same
      obtain ⟨rfl, afterTarget⟩ := target.unambiguous otherTarget same
        (target.stopsBefore_of_equals equals.ofKind)
        (otherTarget.stopsBefore_of_equals otherEquals.ofKind)
      obtain ⟨rfl, afterEquals⟩ := Terminal.of_cons afterTarget
      obtain ⟨rfl, rests⟩ := value.unambiguous otherValue afterEquals leftStops rightStops
      exact ⟨rfl, rests⟩
termination_by structural left

theorem ObjectLiteral.unambiguous (left right : ObjectLiteral) {after behind : List Token}
    (same : left.tokens ++ after = right.tokens ++ behind)
    (leftStops : left.StopsBefore after) (rightStops : right.StopsBefore behind) :
    left = right ∧ after = behind := by
  match left, right with
  | .literal opening entries closing, .literal otherOpening otherEntries otherClosing =>
      simp only [ObjectLiteral.tokens, List.cons_append, List.append_assoc,
        List.nil_append] at same
      obtain ⟨rfl, afterOpening⟩ := Terminal.of_cons same
      obtain ⟨rfl, afterEntries⟩ := entries.unambiguous otherEntries afterOpening
        closing.ofKind otherClosing.ofKind
      obtain ⟨rfl, rests⟩ := Terminal.of_cons afterEntries
      exact ⟨rfl, rests⟩
  | .literal opening entries closing, .sum whole =>
      have starts := whole.starts behind
      rw [show whole.tokens ++ behind = _ from same.symm] at starts
      change startsOperand opening.token.kind = true at starts
      rw [opening.ofKind] at starts
      cases starts
  | .sum whole, .literal opening entries closing =>
      have starts := whole.starts after
      rw [show whole.tokens ++ after = _ from same] at starts
      change startsOperand opening.token.kind = true at starts
      rw [opening.ofKind] at starts
      cases starts
  | .sum whole, .sum other =>
      obtain ⟨rfl, rests⟩ := whole.unambiguous other same leftStops rightStops
      exact ⟨rfl, rests⟩
termination_by structural left

theorem Entries.unambiguous (left right : Entries) {after behind : List Token}
    (same : left.tokens ++ after = right.tokens ++ behind)
    (leftCloses : nextKind after = .closeBrace) (rightCloses : nextKind behind = .closeBrace) :
    left = right ∧ after = behind := by
  match left, right with
  | .none, .none => exact ⟨rfl, same⟩
  | .none, .last entry => exact absurd_of_kinds same leftCloses (entry.starts _) (by decide)
  | .none, .more entry comma rest =>
      rw [Entries.tokens, Entries.tokens, List.append_assoc] at same
      exact absurd_of_kinds same leftCloses (entry.starts _) (by decide)
  | .last entry, .none => exact absurd_of_kinds same (entry.starts _) rightCloses (by decide)
  | .last entry, .last other =>
      obtain ⟨rfl, rests⟩ := entry.unambiguous other same
        (endsEntry_of_closeBrace leftCloses) (endsEntry_of_closeBrace rightCloses)
      exact ⟨rfl, rests⟩
  | .last entry, .more other comma rest =>
      rw [Entries.tokens, Entries.tokens, List.append_assoc] at same
      obtain ⟨_, rests⟩ := entry.unambiguous other same
        (endsEntry_of_closeBrace leftCloses) (endsEntry_comma comma _)
      exact absurd_of_kinds rests leftCloses comma.ofKind (by decide)
  | .more entry comma rest, .none =>
      rw [Entries.tokens, Entries.tokens, List.append_assoc] at same
      exact absurd_of_kinds same (entry.starts _) rightCloses (by decide)
  | .more entry comma rest, .last other =>
      rw [Entries.tokens, Entries.tokens, List.append_assoc] at same
      obtain ⟨_, rests⟩ := entry.unambiguous other same
        (endsEntry_comma comma _) (endsEntry_of_closeBrace rightCloses)
      exact absurd_of_kinds rests comma.ofKind rightCloses (by decide)
  | .more entry comma rest, .more other otherComma otherRest =>
      rw [Entries.tokens, Entries.tokens, List.append_assoc, List.append_assoc] at same
      obtain ⟨rfl, afterEntry⟩ := entry.unambiguous other same
        (endsEntry_comma comma _) (endsEntry_comma otherComma _)
      obtain ⟨rfl, afterComma⟩ := Terminal.of_cons afterEntry
      obtain ⟨rfl, rests⟩ := rest.unambiguous otherRest afterComma leftCloses rightCloses
      exact ⟨rfl, rests⟩
termination_by structural left

theorem Entry.unambiguous (left right : Entry) {after behind : List Token}
    (same : left.tokens ++ after = right.tokens ++ behind)
    (leftEnds : endsEntry (nextKind after) = true)
    (rightEnds : endsEntry (nextKind behind) = true) :
    left = right ∧ after = behind := by
  match left, right with
  | .shorthand key, .shorthand other =>
      obtain ⟨rfl, rests⟩ := Terminal.of_cons same
      exact ⟨rfl, rests⟩
  | .shorthand key, .keyed other colon value =>
      obtain ⟨_, rests⟩ := Terminal.of_cons same
      rw [show after = colon.token :: (value.tokens ++ behind) from rests, nextKind_cons,
        colon.ofKind] at leftEnds
      cases leftEnds
  | .keyed key colon value, .shorthand other =>
      obtain ⟨_, rests⟩ := Terminal.of_cons same
      rw [show behind = colon.token :: (value.tokens ++ after) from rests.symm, nextKind_cons,
        colon.ofKind] at rightEnds
      cases rightEnds
  | .keyed key colon value, .keyed otherKey otherColon otherValue =>
      obtain ⟨rfl, afterKey⟩ := Terminal.of_cons same
      obtain ⟨rfl, afterColon⟩ := Terminal.of_cons afterKey
      obtain ⟨rfl, rests⟩ := value.unambiguous otherValue afterColon
        (value.stopsBefore_of_ends (endsExpression_of_endsEntry leftEnds))
        (otherValue.stopsBefore_of_ends (endsExpression_of_endsEntry rightEnds))
      exact ⟨rfl, rests⟩
termination_by structural left

theorem Sum.unambiguous (left right : Sum) {after behind : List Token}
    (same : left.tokens ++ after = right.tokens ++ behind)
    (leftStops : StopsSum after) (rightStops : StopsSum behind) :
    left = right ∧ after = behind := by
  match left, right with
  | .mk first tail, .mk other otherTail =>
      rw [Sum.tokens, Sum.tokens, List.append_assoc, List.append_assoc] at same
      obtain ⟨rfl, afterFirst⟩ := first.unambiguous other same
        (tail.stopsProduct leftStops) (otherTail.stopsProduct rightStops)
      obtain ⟨rfl, rests⟩ := tail.unambiguous otherTail afterFirst leftStops rightStops
      exact ⟨rfl, rests⟩
termination_by structural left

theorem SumTail.unambiguous (left right : SumTail) {after behind : List Token}
    (same : left.tokens ++ after = right.tokens ++ behind)
    (leftStops : StopsSum after) (rightStops : StopsSum behind) :
    left = right ∧ after = behind := by
  match left, right with
  | .done, .done => exact ⟨rfl, same⟩
  | .done, .more mark operand rest =>
      rw [show after = _ from same] at leftStops
      exact absurd leftStops StopsSum.not_mark
  | .more mark operand rest, .done =>
      rw [show behind = _ from same.symm] at rightStops
      exact absurd rightStops StopsSum.not_mark
  | .more mark operand rest, .more otherMark otherOperand otherRest =>
      simp only [SumTail.tokens, List.cons_append, List.append_assoc] at same
      obtain ⟨rfl, afterMark⟩ := OperatorMark.of_cons same
      obtain ⟨rfl, afterOperand⟩ := operand.unambiguous otherOperand afterMark
        (rest.stopsProduct leftStops) (otherRest.stopsProduct rightStops)
      obtain ⟨rfl, rests⟩ := rest.unambiguous otherRest afterOperand leftStops rightStops
      exact ⟨rfl, rests⟩
termination_by structural left

theorem Product.unambiguous (left right : Product) {after behind : List Token}
    (same : left.tokens ++ after = right.tokens ++ behind)
    (leftStops : StopsProduct after) (rightStops : StopsProduct behind) :
    left = right ∧ after = behind := by
  match left, right with
  | .mk first tail, .mk other otherTail =>
      rw [Product.tokens, Product.tokens, List.append_assoc, List.append_assoc] at same
      obtain ⟨rfl, afterFirst⟩ := first.unambiguous other same
        (tail.stopsCall leftStops) (otherTail.stopsCall rightStops)
      obtain ⟨rfl, rests⟩ := tail.unambiguous otherTail afterFirst leftStops rightStops
      exact ⟨rfl, rests⟩
termination_by structural left

theorem ProductTail.unambiguous (left right : ProductTail) {after behind : List Token}
    (same : left.tokens ++ after = right.tokens ++ behind)
    (leftStops : StopsProduct after) (rightStops : StopsProduct behind) :
    left = right ∧ after = behind := by
  match left, right with
  | .done, .done => exact ⟨rfl, same⟩
  | .done, .more mark operand rest =>
      rw [show after = _ from same] at leftStops
      exact absurd leftStops StopsProduct.not_mark
  | .more mark operand rest, .done =>
      rw [show behind = _ from same.symm] at rightStops
      exact absurd rightStops StopsProduct.not_mark
  | .more mark operand rest, .more otherMark otherOperand otherRest =>
      simp only [ProductTail.tokens, List.cons_append, List.append_assoc] at same
      obtain ⟨rfl, afterMark⟩ := OperatorMark.of_cons same
      obtain ⟨rfl, afterOperand⟩ := operand.unambiguous otherOperand afterMark
        (rest.stopsCall leftStops) (otherRest.stopsCall rightStops)
      obtain ⟨rfl, rests⟩ := rest.unambiguous otherRest afterOperand leftStops rightStops
      exact ⟨rfl, rests⟩
termination_by structural left

theorem Call.unambiguous (left right : Call) {after behind : List Token}
    (same : left.tokens ++ after = right.tokens ++ behind)
    (leftStops : StopsCall after) (rightStops : StopsCall behind) :
    left = right ∧ after = behind := by
  match left, right with
  | .mk callee tail, .mk other otherTail =>
      rw [Call.tokens, Call.tokens, List.append_assoc, List.append_assoc] at same
      obtain ⟨rfl, afterCallee⟩ := callee.unambiguous other same
        (tail.stopsMember leftStops) (otherTail.stopsMember rightStops)
      obtain ⟨rfl, rests⟩ := tail.unambiguous otherTail afterCallee leftStops rightStops
      exact ⟨rfl, rests⟩
termination_by structural left

theorem CallTail.unambiguous (left right : CallTail) {after behind : List Token}
    (same : left.tokens ++ after = right.tokens ++ behind)
    (leftStops : StopsCall after) (rightStops : StopsCall behind) :
    left = right ∧ after = behind := by
  match left, right with
  | .done, .done => exact ⟨rfl, same⟩
  | .done, .more list rest =>
      rw [CallTail.tokens, CallTail.tokens, List.append_assoc] at same
      rw [show after = _ from same] at leftStops
      exact absurd (list.starts _) leftStops.2
  | .more list rest, .done =>
      rw [CallTail.tokens, CallTail.tokens, List.append_assoc] at same
      rw [show behind = _ from same.symm] at rightStops
      exact absurd (list.starts _) rightStops.2
  | .more list rest, .more otherList otherRest =>
      rw [CallTail.tokens, CallTail.tokens, List.append_assoc, List.append_assoc] at same
      obtain ⟨rfl, afterList⟩ := list.unambiguous otherList same
      obtain ⟨rfl, rests⟩ := rest.unambiguous otherRest afterList leftStops rightStops
      exact ⟨rfl, rests⟩
termination_by structural left

theorem ArgumentList.unambiguous (left right : ArgumentList) {after behind : List Token}
    (same : left.tokens ++ after = right.tokens ++ behind) :
    left = right ∧ after = behind := by
  match left, right with
  | .mk opening listed closing, .mk otherOpening otherListed otherClosing =>
      simp only [ArgumentList.tokens, List.cons_append, List.append_assoc,
        List.nil_append] at same
      obtain ⟨rfl, afterOpening⟩ := Terminal.of_cons same
      obtain ⟨rfl, afterListed⟩ := listed.unambiguous otherListed afterOpening
        closing.ofKind otherClosing.ofKind
      obtain ⟨rfl, rests⟩ := Terminal.of_cons afterListed
      exact ⟨rfl, rests⟩
termination_by structural left

theorem Arguments.unambiguous (left right : Arguments) {after behind : List Token}
    (same : left.tokens ++ after = right.tokens ++ behind)
    (leftCloses : nextKind after = .closeParen) (rightCloses : nextKind behind = .closeParen) :
    left = right ∧ after = behind := by
  match left, right with
  | .none, .none => exact ⟨rfl, same⟩
  | .none, .some first rest =>
      have starts := first.starts (rest.tokens ++ behind)
      rw [← List.append_assoc, show (first.tokens ++ rest.tokens) ++ behind = _ from same.symm,
        show nextKind (Arguments.tokens .none ++ after) = _ from leftCloses] at starts
      cases starts
  | .some first rest, .none =>
      have starts := first.starts (rest.tokens ++ after)
      rw [← List.append_assoc, show (first.tokens ++ rest.tokens) ++ after = _ from same,
        show nextKind (Arguments.tokens .none ++ behind) = _ from rightCloses] at starts
      cases starts
  | .some first rest, .some otherFirst otherRest =>
      rw [Arguments.tokens, Arguments.tokens, List.append_assoc, List.append_assoc] at same
      obtain ⟨rfl, afterFirst⟩ := first.unambiguous otherFirst same
        (first.stopsBefore_of_ends (rest.endsExpression_nextKind leftCloses))
        (otherFirst.stopsBefore_of_ends (otherRest.endsExpression_nextKind rightCloses))
      obtain ⟨rfl, rests⟩ := rest.unambiguous otherRest afterFirst leftCloses rightCloses
      exact ⟨rfl, rests⟩
termination_by structural left

theorem ArgumentsTail.unambiguous (left right : ArgumentsTail) {after behind : List Token}
    (same : left.tokens ++ after = right.tokens ++ behind)
    (leftCloses : nextKind after = .closeParen) (rightCloses : nextKind behind = .closeParen) :
    left = right ∧ after = behind := by
  match left, right with
  | .done, .done => exact ⟨rfl, same⟩
  | .done, .more comma argument rest =>
      exact absurd_of_kinds same leftCloses comma.ofKind (by decide)
  | .more comma argument rest, .done =>
      exact absurd_of_kinds same comma.ofKind rightCloses (by decide)
  | .more comma argument rest, .more otherComma otherArgument otherRest =>
      simp only [ArgumentsTail.tokens, List.cons_append, List.append_assoc] at same
      obtain ⟨rfl, afterComma⟩ := Terminal.of_cons same
      obtain ⟨rfl, afterArgument⟩ := argument.unambiguous otherArgument afterComma
        (argument.stopsBefore_of_ends (rest.endsExpression_nextKind leftCloses))
        (otherArgument.stopsBefore_of_ends (otherRest.endsExpression_nextKind rightCloses))
      obtain ⟨rfl, rests⟩ := rest.unambiguous otherRest afterArgument leftCloses rightCloses
      exact ⟨rfl, rests⟩
termination_by structural left

theorem Member.unambiguous (left right : Member) {after behind : List Token}
    (same : left.tokens ++ after = right.tokens ++ behind)
    (leftStops : StopsMember after) (rightStops : StopsMember behind) :
    left = right ∧ after = behind := by
  match left, right with
  | .mk object tail, .mk other otherTail =>
      rw [Member.tokens, Member.tokens, List.append_assoc, List.append_assoc] at same
      obtain ⟨rfl, afterObject⟩ := object.unambiguous other same
      obtain ⟨rfl, rests⟩ := tail.unambiguous otherTail afterObject leftStops rightStops
      exact ⟨rfl, rests⟩
termination_by structural left

theorem MemberTail.unambiguous (left right : MemberTail) {after behind : List Token}
    (same : left.tokens ++ after = right.tokens ++ behind)
    (leftStops : StopsMember after) (rightStops : StopsMember behind) :
    left = right ∧ after = behind := by
  match left, right with
  | .done, .done => exact ⟨rfl, same⟩
  | .done, .named dot name rest =>
      rw [show after = _ from same] at leftStops
      exact absurd dot.ofKind leftStops.1
  | .done, .computed opening property closing rest =>
      rw [show after = _ from same] at leftStops
      exact absurd opening.ofKind leftStops.2
  | .named dot name rest, .done =>
      rw [show behind = _ from same.symm] at rightStops
      exact absurd dot.ofKind rightStops.1
  | .named dot name rest, .named otherDot otherName otherRest =>
      obtain ⟨rfl, afterDot⟩ := Terminal.of_cons same
      obtain ⟨rfl, afterName⟩ := Terminal.of_cons afterDot
      obtain ⟨rfl, rests⟩ := rest.unambiguous otherRest afterName leftStops rightStops
      exact ⟨rfl, rests⟩
  | .named dot name rest, .computed opening property closing otherRest =>
      exact absurd_of_kinds same dot.ofKind opening.ofKind (by decide)
  | .computed opening property closing rest, .done =>
      rw [show behind = _ from same.symm] at rightStops
      exact absurd opening.ofKind rightStops.2
  | .computed opening property closing rest, .named dot name otherRest =>
      exact absurd_of_kinds same opening.ofKind dot.ofKind (by decide)
  | .computed opening property closing rest,
      .computed otherOpening otherProperty otherClosing otherRest =>
      simp only [MemberTail.tokens, List.cons_append, List.append_assoc] at same
      obtain ⟨rfl, afterOpening⟩ := Terminal.of_cons same
      obtain ⟨rfl, afterProperty⟩ := property.unambiguous otherProperty afterOpening
        (property.stopsBefore_terminal closing _ rfl)
        (otherProperty.stopsBefore_terminal otherClosing _ rfl)
      obtain ⟨rfl, afterClosing⟩ := Terminal.of_cons afterProperty
      obtain ⟨rfl, rests⟩ := rest.unambiguous otherRest afterClosing leftStops rightStops
      exact ⟨rfl, rests⟩
termination_by structural left

theorem Operand.unambiguous (left right : Operand) {after behind : List Token}
    (same : left.tokens ++ after = right.tokens ++ behind) :
    left = right ∧ after = behind := by
  match left, right with
  | .name name, .name other =>
      obtain ⟨rfl, rests⟩ := Terminal.of_cons same
      exact ⟨rfl, rests⟩
  | .name name, .number numeral => exact absurd_of_kinds same name.ofKind numeral.ofKind (by decide)
  | .name name, .group opening value closing =>
      exact absurd_of_kinds same name.ofKind opening.ofKind (by decide)
  | .number numeral, .name name => exact absurd_of_kinds same numeral.ofKind name.ofKind (by decide)
  | .number numeral, .number other =>
      obtain ⟨first, rests⟩ := List.cons.inj same
      exact ⟨congrArg _ (Numeral.ext first), rests⟩
  | .number numeral, .group opening value closing =>
      exact absurd_of_kinds same numeral.ofKind opening.ofKind (by decide)
  | .group opening value closing, .name name =>
      exact absurd_of_kinds same opening.ofKind name.ofKind (by decide)
  | .group opening value closing, .number numeral =>
      exact absurd_of_kinds same opening.ofKind numeral.ofKind (by decide)
  | .group opening value closing, .group otherOpening otherValue otherClosing =>
      simp only [Operand.tokens, List.cons_append, List.append_assoc, List.nil_append] at same
      obtain ⟨rfl, afterOpening⟩ := Terminal.of_cons same
      obtain ⟨rfl, afterValue⟩ := value.unambiguous otherValue afterOpening
        (value.stopsBefore_terminal closing _ rfl)
        (otherValue.stopsBefore_terminal otherClosing _ rfl)
      obtain ⟨rfl, rests⟩ := Terminal.of_cons afterValue
      exact ⟨rfl, rests⟩
termination_by structural left

end

/-! ## Statements -/

/-- An expression that a statement ends in stops before what may stand behind the statement. -/
theorem Expression.unambiguous_of_mayFollow (left right : Expression) {after behind : List Token}
    (same : left.tokens ++ after = right.tokens ++ behind)
    (leftFollows : mayFollowStatement (nextKind after) = true)
    (leftMay : nextKind after = .openParen → left.EndsInLiteral)
    (rightFollows : mayFollowStatement (nextKind behind) = true)
    (rightMay : nextKind behind = .openParen → right.EndsInLiteral) :
    left = right ∧ after = behind :=
  left.unambiguous right same (left.stopsBefore_of_mayFollow leftFollows leftMay)
    (right.stopsBefore_of_mayFollow rightFollows rightMay)

/-- No statement may be followed by a semicolon. -/
theorem not_mayFollowStatement_semicolon (semicolon : Terminal .semicolon) (rest : List Token) :
    ¬ mayFollowStatement (nextKind (semicolon.token :: rest)) = true := by
  rw [nextKind_cons, semicolon.ofKind]
  decide

/-- A statement with a semicolon and one without are never followed alike. -/
theorem Expression.not_terminated (left right : Expression) {semicolon : Terminal .semicolon}
    {after behind : List Token} {goal : Prop}
    (same : left.tokens ++ semicolon.token :: after = right.tokens ++ behind)
    (follows : mayFollowStatement (nextKind behind) = true)
    (may : nextKind behind = .openParen → right.EndsInLiteral) : goal := by
  have stops := left.stopsBefore_terminal semicolon after rfl
  obtain ⟨_, rests⟩ := left.unambiguous right same stops
    (right.stopsBefore_of_mayFollow follows may)
  rw [← rests] at follows
  exact absurd follows (not_mayFollowStatement_semicolon semicolon after)

theorem declarationKeyword_injective {left right : Bool}
    (same : declarationKeyword left = declarationKeyword right) : left = right := by
  cases left <;> cases right <;> first | rfl | cases same

theorem declarationKeyword_ne_fnKeyword (constant : Bool) :
    declarationKeyword constant ≠ .fnKeyword := by
  cases constant <;> decide

/-- The keyword of a statement, if it starts with one. -/
def Statement.keyword? : Statement → Option Token.Kind
  | .declaration .. => some .letKeyword
  | .initialized constant .. => some (declarationKeyword constant)
  | .function .. => some .fnKeyword
  | .terminated .. | .unterminated _ => none

/-- A statement without a keyword starts with an expression. -/
theorem Statement.startsExpression_of_keyword? {statement : Statement}
    (noKeyword : statement.keyword? = none) (rest : List Token) :
    startsExpression (nextKind (statement.tokens ++ rest)) = true := by
  cases statement with
  | terminated value semicolon =>
      rw [Statement.tokens, List.append_assoc]
      exact value.starts _
  | unterminated value => exact value.starts rest
  | _ => cases noKeyword

theorem Statement.nextKind_of_keyword? {statement : Statement} {kind : Token.Kind}
    (keyword : statement.keyword? = some kind) (rest : List Token) :
    nextKind (statement.tokens ++ rest) = kind ∧ startsExpression kind = false := by
  cases statement with
  | declaration keyword =>
      cases keyword
      exact ⟨keyword.ofKind, rfl⟩
  | initialized constant keyword =>
      cases keyword
      exact ⟨keyword.ofKind, by cases constant <;> rfl⟩
  | function keyword =>
      cases keyword
      exact ⟨keyword.ofKind, rfl⟩
  | _ => cases keyword

/-- Statements with the same tokens have the same keyword. -/
theorem Statement.keyword?_eq (left right : Statement) {after behind : List Token}
    (same : left.tokens ++ after = right.tokens ++ behind) :
    left.keyword? = right.keyword? := by
  cases ofLeft : left.keyword? with
  | none =>
      have leftStarts := startsExpression_of_keyword? ofLeft after
      cases ofRight : right.keyword? with
      | none => rfl
      | some kind =>
          obtain ⟨rightStarts, noExpression⟩ := nextKind_of_keyword? ofRight behind
          rw [same, rightStarts, noExpression] at leftStarts
          cases leftStarts
  | some kind =>
      obtain ⟨leftStarts, noExpression⟩ := nextKind_of_keyword? ofLeft after
      cases ofRight : right.keyword? with
      | none =>
          have rightStarts := startsExpression_of_keyword? ofRight behind
          rw [← same, leftStarts, noExpression] at rightStarts
          cases rightStarts
      | some other =>
          obtain ⟨rightStarts, _⟩ := nextKind_of_keyword? ofRight behind
          rw [← leftStarts, ← rightStarts, same]

theorem functionBody_endsBefore (closing : Terminal .closeBrace) (rest : List Token) :
    Block.functionBody.endsBefore (nextKind (closing.token :: rest)) = true := by
  rw [nextKind_cons, closing.ofKind]
  rfl

mutual

theorem Statement.unambiguous (left right : Statement) {after behind : List Token}
    (same : left.tokens ++ after = right.tokens ++ behind)
    (leftSeparated : left.Separated) (rightSeparated : right.Separated)
    (leftMay : left.MayPrecede (nextKind after)) (rightMay : right.MayPrecede (nextKind behind))
    (leftFollows : mayFollowStatement (nextKind after) = true)
    (rightFollows : mayFollowStatement (nextKind behind) = true) :
    left = right ∧ after = behind := by
  have keywords := left.keyword?_eq right same
  match left with
  | .declaration keyword name semicolon =>
      cases right with
      | declaration =>
          obtain ⟨rfl, afterKeyword⟩ := Terminal.of_cons same
          obtain ⟨rfl, afterName⟩ := Terminal.of_cons afterKeyword
          obtain ⟨rfl, rests⟩ := Terminal.of_cons afterName
          exact ⟨rfl, rests⟩
      | initialized constant other otherName equals value =>
          obtain ⟨_, afterKeyword⟩ := List.cons.inj same
          obtain ⟨_, afterName⟩ := Terminal.of_cons afterKeyword
          exact absurd_of_kinds afterName semicolon.ofKind equals.ofKind (by decide)
      | _ => cases keywords
  | .initialized constant keyword name equals value semicolon =>
      cases right with
      | declaration other otherName otherSemicolon =>
          obtain ⟨_, afterKeyword⟩ := List.cons.inj same
          obtain ⟨_, afterName⟩ := Terminal.of_cons afterKeyword
          exact absurd_of_kinds afterName equals.ofKind otherSemicolon.ofKind (by decide)
      | initialized _ _ _ _ otherValue otherSemicolon =>
          obtain rfl := declarationKeyword_injective (Option.some.inj keywords)
          simp only [Statement.tokens, List.cons_append, List.append_assoc,
            List.nil_append] at same
          obtain ⟨rfl, afterKeyword⟩ := Terminal.of_cons same
          obtain ⟨rfl, afterName⟩ := Terminal.of_cons afterKeyword
          obtain ⟨rfl, afterEquals⟩ := Terminal.of_cons afterName
          obtain ⟨rfl, afterValue⟩ := value.unambiguous otherValue afterEquals
            (value.stopsBefore_terminal semicolon _ rfl)
            (otherValue.stopsBefore_terminal otherSemicolon _ rfl)
          obtain ⟨rfl, rests⟩ := Terminal.of_cons afterValue
          exact ⟨rfl, rests⟩
      | function =>
          exact absurd (Option.some.inj keywords) (declarationKeyword_ne_fnKeyword constant)
      | _ => cases keywords
  | .function keyword name parameters opening body closing =>
      cases right with
      | initialized constant =>
          exact absurd (Option.some.inj keywords.symm) (declarationKeyword_ne_fnKeyword constant)
      | function _ _ otherParameters _ otherBody otherClosing =>
          simp only [Statement.tokens, List.cons_append, List.append_assoc,
            List.nil_append] at same
          obtain ⟨rfl, afterKeyword⟩ := Terminal.of_cons same
          obtain ⟨rfl, afterName⟩ := Terminal.of_cons afterKeyword
          obtain ⟨lists, afterList⟩ :=
            parameters.list.unambiguous otherParameters.list afterName
          obtain rfl := ParameterList.ext lists
          obtain ⟨rfl, afterOpening⟩ := Terminal.of_cons afterList
          obtain ⟨rfl, afterBody⟩ := body.unambiguous otherBody .functionBody afterOpening
            leftSeparated rightSeparated (functionBody_endsBefore closing after)
            (functionBody_endsBefore otherClosing behind)
          obtain ⟨rfl, rests⟩ := Terminal.of_cons afterBody
          exact ⟨rfl, rests⟩
      | _ => cases keywords
  | .terminated value semicolon =>
      cases right with
      | terminated other otherSemicolon =>
          rw [Statement.tokens, Statement.tokens, List.append_assoc, List.append_assoc] at same
          obtain ⟨rfl, afterValue⟩ := value.unambiguous other same
            (value.stopsBefore_terminal semicolon _ rfl)
            (other.stopsBefore_terminal otherSemicolon _ rfl)
          obtain ⟨rfl, rests⟩ := Terminal.of_cons afterValue
          exact ⟨rfl, rests⟩
      | unterminated other =>
          rw [Statement.tokens, Statement.tokens, List.append_assoc] at same
          exact value.not_terminated other same rightFollows rightMay
      | _ => cases keywords
  | .unterminated value =>
      cases right with
      | terminated other semicolon =>
          rw [Statement.tokens, Statement.tokens, List.append_assoc] at same
          exact other.not_terminated value same.symm leftFollows leftMay
      | unterminated other =>
          obtain ⟨rfl, rests⟩ := value.unambiguous_of_mayFollow other same leftFollows leftMay
            rightFollows rightMay
          exact ⟨rfl, rests⟩
      | _ => cases keywords
termination_by structural left

theorem Statements.unambiguous (left right : Statements) (block : Block)
    {after behind : List Token} (same : left.tokens ++ after = right.tokens ++ behind)
    (leftSeparated : left.Separated) (rightSeparated : right.Separated)
    (leftEnds : block.endsBefore (nextKind after) = true)
    (rightEnds : block.endsBefore (nextKind behind) = true) :
    left = right ∧ after = behind := by
  match left, right with
  | .none, .none => exact ⟨rfl, same⟩
  | .none, .more first rest =>
      have goesOn := not_endsBefore_of_startsStatement block (first.starts (rest.tokens ++ behind))
      rw [Statements.tokens, Statements.tokens, List.append_assoc] at same
      rw [← same, List.nil_append, leftEnds] at goesOn
      cases goesOn
  | .more first rest, .none =>
      have goesOn := not_endsBefore_of_startsStatement block (first.starts (rest.tokens ++ after))
      rw [Statements.tokens, Statements.tokens, List.append_assoc] at same
      rw [same, List.nil_append, rightEnds] at goesOn
      cases goesOn
  | .more first rest, .more other otherRest =>
      rw [Statements.tokens, Statements.tokens, List.append_assoc, List.append_assoc] at same
      obtain ⟨leftFirst, leftBetween, leftRest⟩ := leftSeparated
      obtain ⟨rightFirst, rightBetween, rightRest⟩ := rightSeparated
      obtain ⟨rfl, afterFirst⟩ := first.unambiguous other same leftFirst rightFirst
        (first.mayPrecede_append leftBetween leftEnds)
        (other.mayPrecede_append rightBetween rightEnds)
        (rest.mayFollow leftEnds) (otherRest.mayFollow rightEnds)
      obtain ⟨rfl, rests⟩ := rest.unambiguous otherRest block afterFirst leftRest rightRest
        leftEnds rightEnds
      exact ⟨rfl, rests⟩
termination_by structural left

end

end NanoScript.Grammar
