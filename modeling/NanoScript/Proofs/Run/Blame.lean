import NanoScript.Proofs.Evaluation.Discipline
import NanoScript.Proofs.Grammar.Pieces
import NanoScript.Proofs.Reading.Source
import NanoScript.Proofs.Run.Start
import NanoScript.Proofs.Token.Exactness

/-!
Contract: a fault of a run points at what caused it.

Owns:
- the text that a range cuts out of a source;
- the discipline of the evaluations of one program, and the functions that its calls come to;
- what each fault points at in the program that a source text spells out;
- the theorem that every fault of a run from the start points at a construct of the right form.

That a place is the right one has two halves: the phrase that raises a fault hands on the right one
of its places, and the reader gave each phrase and each name its own place.
-/

namespace NanoScript

open Token Grammar Relation

/-! ## Places of names -/

/-- A range cuts a text out of a source: it starts behind what is before the text and ends with
it. -/
def Span.Cuts (span : Span) (source text : String) : Prop :=
  ∃ before after, source.toList = before ++ (text.toList ++ after) ∧
    span = ⟨Text.byteLength before, Text.byteLength before + Text.byteLength text.toList⟩

/-- Every phrase of a program takes its names from texts that their places cut out. -/
theorem Phrase.exists_names_of_ofSource {source : String} {program part : Phrase}
    (reads : ofSource source = .ok program) (occurs : part.OccursIn program) :
    ∃ tokens, NamesAmong tokens part ∧ ∀ token ∈ tokens, token.span.Cuts source token.text := by
  obtain ⟨derivation, scans, _, rfl⟩ := exists_derivation_of_ofSource reads
  obtain ⟨inner, inside, forms⟩ := Forms.exists_of_occursIn occurs (derivation.forms _)
  refine ⟨inner, forms.names, fun token member => ?_⟩
  obtain ⟨_, before, split, stand, _⟩ := (scans_of_scan scans).exact [] rfl
  obtain ⟨rfl, _⟩ := List.append_inj' split rfl
  obtain ⟨left, right, isSplit, between⟩ := stand token (inside.subset member)
  exact ⟨left, right, isSplit, between.span⟩

theorem Phrase.cuts_of_identifier {source : String} {program : Phrase} {name : String} {span : Span}
    (reads : ofSource source = .ok program)
    (occurs : (Phrase.identifier name span).OccursIn program) : span.Cuts source name := by
  obtain ⟨tokens, ⟨token, member, _, rfl, rfl⟩, cut⟩ := exists_names_of_ofSource reads occurs
  exact cut token member

theorem Phrase.cuts_of_shorthand {source : String} {program : Phrase}
    {entries : List NanoScript.Entry} {key : String} {span whole : Span}
    (reads : ofSource source = .ok program)
    (occurs : (Phrase.objectLiteral entries whole).OccursIn program)
    (listed : .shorthand key span ∈ entries) : span.Cuts source key := by
  obtain ⟨tokens, names, cut⟩ := exists_names_of_ofSource reads occurs
  obtain ⟨token, member, _, rfl, rfl⟩ := names key span listed
  exact cut token member

theorem Phrase.eq_identifier_of_name? {phrase : Phrase} {name : String}
    (named : phrase.name? = some name) : phrase = .identifier name phrase.span := by
  cases phrase with
  | identifier text span =>
      cases named
      rfl
  | _ => cases named

/-! ## The evaluations of a program -/

/-- The evaluations of one program: functions are those that are declared in it. -/
def Discipline.ofProgram (program : Phrase) : Discipline where
  base := 0
  scopes _ := True
  functions _ function :=
    (Phrase.functionDeclaration function.name function.parameters function.body
      function.bodyId.place).IsUsedIn program
  fits _ _ phrase := phrase.IsUsedIn program
  fresh _ := trivial
  functions_mono _ within := within
  fits_mono _ within := within
  closure _ := trivial
  scope _ := trivial
  part within member := (Phrase.IsUsedIn.inPart member .here).trans within
  declared _ within := within
  body _ within member := (Phrase.IsUsedIn.inBody member .here).trans within

/-- A call at a place in a program comes to the function that it runs: in a state that the program
can make out of the one it starts in, its callee gives this function, which the program declares. -/
def Phrase.CallsAt (program : Phrase) (function : Function) (span : Span) : Prop :=
  ∃ scope callee arguments, ∃ before after : State, ∃ depth text,
    (Phrase.call callee arguments span).IsUsedIn program ∧
      ReflTransGen (Discipline.ofProgram program).Change State.initial.2.addText before ∧
      callee.evaluate ((Invoker.upTo Host.standard depth).within text) scope before =
        .ok (.function function) after ∧
      (Phrase.functionDeclaration function.name function.parameters function.body
        function.bodyId.place).IsUsedIn program

theorem Discipline.CallsFrom.callsAt {program : Phrase} {after : State} {function : Function}
    {span : Span}
    (calls : (Discipline.ofProgram program).CallsFrom State.initial.2.addText after function span) :
    program.CallsAt function span := by
  obtain ⟨scope, callee, arguments, before, depth, text, used, changes, gives, declared⟩ := calls
  exact ⟨scope, callee, arguments, before, after, depth, text, used, changes, gives, declared⟩

/-! ## What faults point at -/

/-- What a fault points at in the program of a source text. -/
def Fault.PointsInto (source : String) (program : Phrase) : Fault → Prop
  | .scope (.unresolved name) span =>
      span.Cuts source name ∧
        ((Phrase.identifier name span).IsUsedIn program ∨
          (∃ entries whole, (Phrase.objectLiteral entries whole).IsUsedIn program ∧
            .shorthand name span ∈ entries) ∨
          ∃ value whole,
            (Phrase.assignment (.identifier name span) value whole).IsUsedIn program)
  | .scope (.constantReassigned name) span =>
      span.Cuts source name ∧
        ∃ value whole, (Phrase.assignment (.identifier name span) value whole).IsUsedIn program
  | .scope (.alreadyDeclared name) span =>
      (∃ value constant, (Phrase.variableDeclaration name value constant span).IsUsedIn program) ∨
        (∃ parameters body,
          (Phrase.functionDeclaration name parameters body span).IsUsedIn program) ∨
        ∃ function, program.CallsAt function span ∧ 2 ≤ function.parameters.count name
  | .divisionByZero span =>
      ∃ left operator right, (Phrase.binary left operator right span).IsUsedIn program ∧
        (operator = .divide ∨ operator = .modulo)
  | .invalidAssignmentTarget span =>
      ∃ target value whole, (Phrase.assignment target value whole).IsUsedIn program ∧
        target.name? = none ∧ target.span = span
  | .arityMismatch name expected _ span =>
      ∃ function, program.CallsAt function span ∧ function.name = name ∧
        function.parameters.length = expected
  | .notAFunction _ span =>
      ∃ callee arguments whole, (Phrase.call callee arguments whole).IsUsedIn program ∧
        callee.span = span
  | .notAnObject _ span =>
      ∃ object property computed whole,
        (Phrase.member object property computed whole).IsUsedIn program ∧ object.span = span
  | .invalidPropertyKey found span =>
      (∃ kind, found = .value kind) ∧
        ∃ object property whole, (Phrase.member object property true whole).IsUsedIn program ∧
          property.span = span
  | .native _ _ => False

theorem Discipline.ofProgram_admits_initial (program : Phrase) :
    (Discipline.ofProgram program).Admits State.initial.2 := by
  refine ⟨Nat.zero_le _, fun _ _ _ _ => trivial, ?_⟩
  intro id scope _ present entry bound function occurs
  exact absurd ⟨id, scope, present, entry, bound, occurs⟩ (State.not_holds_initial function)

/-- A phrase that is used in a program raises faults that point at what caused them. -/
theorem Phrase.Raises.pointsInto {source : String} {program phrase : Phrase} {fault : Fault}
    (raises : phrase.Raises fault) (reads : ofSource source = .ok program)
    (used : phrase.IsUsedIn program)
    (warrants : (Discipline.ofProgram program).Warrants State.initial.2.addText fault) :
    fault.PointsInto source program := by
  have assigned : ∀ {target value span name}, (Phrase.assignment target value span) = phrase →
      target.name? = some name → target.span.Cuts source name ∧ ∃ value whole,
        (Phrase.assignment (.identifier name target.span) value whole).IsUsedIn program := by
    rintro target value span name rfl named
    have isName := eq_identifier_of_name? named
    have occurs := (OccursIn.of_parts List.mem_cons_self : target.OccursIn _).trans used.occursIn
    rw [isName] at occurs used
    exact ⟨cuts_of_identifier reads occurs, value, span, used⟩
  cases raises with
  | declared => exact .inl ⟨_, _, used⟩
  | functionDeclared => exact .inr (.inl ⟨_, _, used⟩)
  | unresolved => exact ⟨cuts_of_identifier reads used.occursIn, .inl used⟩
  | shorthandUnresolved listed =>
      exact ⟨cuts_of_shorthand reads used.occursIn listed, .inr (.inl ⟨_, _, used, listed⟩)⟩
  | division divides => exact ⟨_, _, _, used, divides⟩
  | target noName => exact ⟨_, _, _, used, noName, rfl⟩
  | targetUnresolved named =>
      exact (assigned rfl named).imp_right fun assignment => .inr (.inr assignment)
  | targetConstant named => exact assigned rfl named
  | arity =>
      obtain ⟨_, function, calls, named, expects⟩ := warrants
      exact ⟨function, calls.callsAt, named, expects⟩
  | parameterRepeated =>
      rcases warrants with ⟨_, _, declaration, within, named, rfl⟩ | ⟨_, function, calls, twice⟩
      · cases declaration with
        | variableDeclaration name value constant span =>
            rw [List.mem_singleton.1 named]
            exact .inl ⟨_, _, within⟩
        | functionDeclaration name parameters body span =>
            rw [List.mem_singleton.1 named]
            exact .inr (.inl ⟨_, _, within⟩)
        | _ => cases named
      · exact .inr (.inr ⟨function, calls.callsAt, twice⟩)
  | callee => exact ⟨_, _, _, used, rfl⟩
  | object => exact ⟨_, _, _, _, used, rfl⟩
  | computedKey => exact ⟨⟨_, rfl⟩, _, _, _, used, rfl⟩
  | key noName =>
      obtain ⟨_, names, _⟩ := exists_names_of_ofSource reads used.occursIn
      have isName := names rfl
      rw [noName] at isName
      cases isName

/-- Every fault of a run from the start points at a construct of the program that can cause it. -/
theorem run_fault_points_into (depth : Nat) (source : String) {fault : Fault}
    (fails : (run (Invoker.upTo Host.standard depth) source State.initial.1 State.initial.2).1 =
      .error (.fault fault)) :
    ∃ program, Phrase.ofSource source = .ok program ∧ fault.PointsInto source program := by
  cases reads : Phrase.ofSource source with
  | error error =>
      rw [run_of_fails _ reads] at fails
      cases fails
  | ok program =>
      rw [run_of_reads _ reads, Evaluation.outcome_apply] at fails
      have fits : (Discipline.ofProgram program).fits State.initial.2.addText.size State.initial.1
        program := .here
      have ends := Discipline.evaluate_ends depth State.initial.2.store.texts
        (Discipline.ofProgram_admits_initial program).addText fits
      cases result : program.evaluate ((Invoker.upTo Host.standard depth).within
          State.initial.2.store.texts) State.initial.1 State.initial.2.addText with
      | ok value after =>
          rw [result] at fails
          cases fails
      | error stop after =>
          rw [result] at fails ends
          cases stop with
          | tooDeep => cases fails
          | fault cause =>
              cases fails
              obtain ⟨_, ⟨_, _, phrase, used, raises⟩, warrants⟩ := ends
              exact ⟨program, rfl, raises.pointsInto reads used warrants⟩

/-- A function that repeats a parameter can be declared but not called, and the call is to blame. -/
theorem repeated_parameter_points_at_call :
    (run (Invoker.upTo Host.standard 1) "fn f(a, a) { a } f(1, 2)" State.initial.1
        State.initial.2).1 = .error (.fault (.scope (.alreadyDeclared "a") ⟨17, 24⟩)) ∧
      ∃ program, Phrase.ofSource "fn f(a, a) { a } f(1, 2)" = .ok program ∧
        (Fault.scope (.alreadyDeclared "a") ⟨17, 24⟩).PointsInto "fn f(a, a) { a } f(1, 2)"
          program := by
  have fails : (run (Invoker.upTo Host.standard 1) "fn f(a, a) { a } f(1, 2)" State.initial.1
      State.initial.2).1 = .error (.fault (.scope (.alreadyDeclared "a") ⟨17, 24⟩)) :=
    Reading.eq_error_of_map (fun _ => ()) (by decide +kernel)
  exact ⟨fails, run_fault_points_into 1 "fn f(a, a) { a } f(1, 2)" fails⟩

end NanoScript
