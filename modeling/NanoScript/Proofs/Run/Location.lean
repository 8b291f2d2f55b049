import NanoScript.Diagnostic
import NanoScript.Proofs.Run.Blame
import NanoScript.Proofs.Run.Origin

/-!
Contract: where a report shows the failure of a run from the start.

Owns:
- plain texts, in which bytes and characters are counted alike;
- the place of a failure, given that the text before it is plain;
- the theorem that a failure is located, unless an unrecognized character overhangs the text.

Ranges count bytes and reports count characters.  Only an unrecognized character makes a
difference.  All before it is plain, so the offset of its first byte is right; but its range is up
to four bytes long, and a text that has too few characters behind it does not reach the end of the
range.
-/

namespace NanoScript

open Token

/-! ## Plain texts -/

namespace Text

/-- Each character is one of the basic character set. -/
def IsPlain (text : List Char) : Prop :=
  ∀ c ∈ text, c.toNat < 128

theorem utf8Size_eq_one {c : Char} (isPlain : c.toNat < 128) : c.utf8Size = 1 :=
  Char.utf8Size_eq_one_iff.2 (UInt32.le_iff_toNat_le.2 (Nat.le_of_lt_succ isPlain))

/-- A plain text has as many bytes as characters. -/
theorem IsPlain.byteLength_eq {text : List Char} (isPlain : IsPlain text) :
    byteLength text = text.length := by
  induction text with
  | nil => rfl
  | cons c rest inductionHypothesis =>
      obtain ⟨ofFirst, ofRest⟩ := List.forall_mem_cons.1 isPlain
      rw [byteLength_cons, List.length_cons, utf8Size_eq_one ofFirst, inductionHypothesis ofRest]
      omega

theorem isPlain_of_scan {source : String} {tokens : List Token}
    (scans : scan source = .ok tokens) : IsPlain source.toList := by
  obtain ⟨admissible, _⟩ := (scans_of_scan scans).exact [] rfl
  exact fun c member => lt_of_isAdmissible (admissible c member)

end Text

/-! ## Places -/

/-- A report points where its failure does. -/
@[simp] theorem Failure.span_diagnostic (failure : Failure) :
    failure.diagnostic.span = failure.span := by
  cases failure with
  | syntaxError error => cases error <;> rfl
  | fault cause =>
      cases cause with
      | scope error span => cases error <;> rfl
      | _ => rfl
  | tooDeep => rfl

/-- All of a text before the place of a failure is plain, so that the first byte of the place is
also its first character. -/
def Failure.StartsBehindPlain (source : String) (failure : Failure) : Prop :=
  ∃ before after, source.toList = before ++ after ∧ Text.IsPlain before ∧
    failure.span.start = before.length

/-- An unrecognized character of more bytes than a text has characters from there on, one more
counted for its end. -/
def Failure.Overhangs (source : String) (failure : Failure) : Prop :=
  ∃ fault c before after, failure = .syntaxError (.unrecognizedCharacter fault) ∧
    fault.cause = .character c ∧ source.toList = before ++ c :: after ∧ Text.IsPlain before ∧
    failure.span.start = before.length ∧ after.length + 2 < c.utf8Size

/-- A place in a plain text is shown. -/
theorem Failure.canBeShown_of_isPlain {source : String} {failure : Failure}
    (isPlain : Text.IsPlain source.toList) (inside : failure.span.Inside source.utf8ByteSize) :
    failure.diagnostic.canBeShown source = true := by
  have bounded := inside.bounded
  have size : source.utf8ByteSize = source.length := by
    rw [← Text.byteLength_toList, isPlain.byteLength_eq, String.length_toList]
  rw [size] at bounded
  refine decide_eq_true ?_
  unfold Diagnostic.markedRange
  rw [span_diagnostic]
  have ordered := inside.ordered
  split
  · show failure.span.start + 1 - 1 ≤ source.length
    omega
  · omega

/-- The place of an unrecognized character is shown just if the text reaches far enough. -/
theorem Failure.canBeShown_unrecognized {source : String} {fault : Unrecognized} {c : Char}
    {before after : List Char} (split : source.toList = before ++ c :: after)
    (span : fault.span = ⟨before.length, before.length + c.utf8Size⟩) :
    (Failure.syntaxError (.unrecognizedCharacter fault)).diagnostic.canBeShown source = true ↔
      c.utf8Size ≤ after.length + 2 := by
  have length : source.length = before.length + (after.length + 1) := by
    rw [← String.length_toList, split, List.length_append, List.length_cons]
  have positive := c.utf8Size_pos
  have marked :
      (Failure.syntaxError (.unrecognizedCharacter fault)).diagnostic.markedRange = fault.span := by
    refine if_neg ?_
    show fault.span.start ≠ fault.span.stop
    rw [span]
    exact Nat.ne_of_lt (Nat.lt_add_of_pos_right positive)
  unfold Diagnostic.canBeShown
  rw [decide_eq_true_iff, marked, span, length]
  show before.length + c.utf8Size - 1 ≤ before.length + (after.length + 1) ↔ _
  omega

/-! ## Failures in plain texts -/

theorem Failure.startsBehindPlain_of_isPlain {source : String} {failure : Failure}
    (isPlain : Text.IsPlain source.toList) (inside : failure.span.Inside source.utf8ByteSize) :
    failure.StartsBehindPlain source := by
  have bounded : failure.span.start ≤ source.toList.length := by
    rw [← isPlain.byteLength_eq, Text.byteLength_toList]
    exact Nat.le_trans inside.ordered inside.bounded
  refine ⟨source.toList.take failure.span.start, source.toList.drop failure.span.start,
    (List.take_append_drop _ _).symm, ?_, ?_⟩
  · exact fun c member => isPlain c (List.mem_of_mem_take member)
  · rw [List.length_take, Nat.min_eq_left bounded]

/-- No character of a plain text overhangs it. -/
theorem Failure.not_overhangs_of_isPlain {source : String} {failure : Failure}
    (isPlain : Text.IsPlain source.toList) : ¬ failure.Overhangs source := by
  rintro ⟨fault, c, before, after, _, _, split, _, _, overhangs⟩
  have listed : c ∈ source.toList := by
    rw [split]
    exact List.mem_append_right _ List.mem_cons_self
  rw [Text.utf8Size_eq_one (isPlain _ listed)] at overhangs
  omega

/-- A failure of a run from the start points inside the text. -/
theorem Failure.inside_of_run {depth : Nat} {source : String} {failure : Failure}
    (fails : (run (Invoker.upTo Host.standard depth) source State.initial.1 State.initial.2).1 =
      .error failure) : failure.span.Inside source.utf8ByteSize := by
  obtain ⟨error, reads, rfl⟩ | ⟨program, stop, after, reads, stops, rfl⟩ := run_error_cases fails
  · exact SyntaxError.inside_of_ofSource reads
  · have fits : (Discipline.ofProgram program).fits State.initial.2.addText.size State.initial.1
      program := .here
    have ends := Discipline.evaluate_ends depth State.initial.2.store.texts
      (Discipline.ofProgram_admits_initial program).addText fits
    rw [stops] at ends
    cases stop with
    | tooDeep => exact Span.inside_empty (Nat.zero_le _)
    | fault cause =>
        obtain ⟨_, ⟨_, _, phrase, used, raises⟩, _⟩ := ends
        exact raises.inside ⟨program, reads, used.occursIn⟩

/-! ## Locations -/

/-- The place of every failure of a run from the start is right, and it is shown unless an
unrecognized character overhangs the text. -/
theorem run_failure_located (depth : Nat) (name source : String) {failure : Failure}
    (fails : (run (Invoker.upTo Host.standard depth) source State.initial.1 State.initial.2).1 =
      .error failure) :
    failure.StartsBehindPlain source ∧
      (¬ failure.Overhangs source →
        failure.diagnostic.location? name source =
          some (name ++ ":" ++ (Text.placeOf source failure.span.start).text)) ∧
      (failure.Overhangs source → failure.diagnostic.location? name source = none) := by
  unfold Diagnostic.location?
  rw [Failure.span_diagnostic]
  cases scans : scan source with
  | ok tokens =>
      have isPlain := Text.isPlain_of_scan scans
      have inside := Failure.inside_of_run fails
      refine ⟨Failure.startsBehindPlain_of_isPlain isPlain inside, fun _ => ?_, fun overhangs => ?_⟩
      · exact if_pos (Failure.canBeShown_of_isPlain isPlain inside)
      · exact absurd overhangs (Failure.not_overhangs_of_isPlain isPlain)
  | error fault =>
      rw [run_of_fails _ (Phrase.ofSource_of_scan_error scans)] at fails
      cases fails
      obtain ⟨before, c, after, split, cause, _, admissible, span⟩ :=
        exists_of_unrecognized scans
      have isPlain : Text.IsPlain before :=
        fun other member => lt_of_isAdmissible (admissible other member)
      rw [Nat.zero_add, isPlain.byteLength_eq] at span
      have start : fault.span.start = before.length := by rw [span]
      have shown := Failure.canBeShown_unrecognized split span
      refine ⟨⟨before, _, split, isPlain, start⟩, fun notOver => ?_, fun overhangs => ?_⟩
      · refine if_pos (shown.2 (Nat.le_of_not_lt fun tooFew => notOver ?_))
        exact ⟨fault, c, before, after, rfl, cause, split, isPlain, start, tooFew⟩
      · obtain ⟨_, other, front, back, same, sameCause, otherSplit, _, otherStart, tooFew⟩ :=
          overhangs
        cases same
        cases cause.symm.trans sameCause
        -- The place fixes what is before the character, so that as much is behind it.
        have frontLength : front.length = before.length := otherStart.symm.trans start
        have backLength := congrArg List.length (otherSplit.symm.trans split)
        rw [List.length_append, List.length_append, List.length_cons, List.length_cons,
          frontLength] at backLength
        refine if_neg fun isShown => ?_
        have enough := shown.1 isShown
        omega

/-- The end of a text is located behind its last character, and a character of three bytes at the
end is not located. -/
theorem end_of_input_located :
    (Failure.syntaxError (.unexpectedEnd .operand ⟨2, 2⟩)).diagnostic.location? "test" "(\n" =
        some "test:1:3" ∧
      (Failure.syntaxError (.unrecognizedCharacter ⟨.character '日', 4, 7⟩)).diagnostic.location? "test"
        "1 + 日" = none := by
  have endFails : (run (Invoker.upTo Host.standard 0) "(\n" State.initial.1 State.initial.2).1 =
      .error (.syntaxError (.unexpectedEnd .operand ⟨2, 2⟩)) :=
    Reading.eq_error_of_map (fun _ => ()) (by decide +kernel)
  have characterFails :
      (run (Invoker.upTo Host.standard 0) "1 + 日" State.initial.1 State.initial.2).1 =
        .error (.syntaxError (.unrecognizedCharacter ⟨.character '日', 4, 7⟩)) :=
    Reading.eq_error_of_map (fun _ => ()) (by decide +kernel)
  obtain ⟨_, shown, _⟩ := run_failure_located 0 "test" "(\n" endFails
  obtain ⟨_, _, hidden⟩ := run_failure_located 0 "test" "1 + 日" characterFails
  have isPlain : Text.IsPlain "1 + ".toList := by
    have all : "1 + ".toList.all (fun c => decide (c.toNat < 128)) = true := by decide
    exact fun c member => of_decide_eq_true (List.all_eq_true.1 all c member)
  refine ⟨(shown ?_).trans (by decide +kernel), hidden ?_⟩
  · rintro ⟨_, _, _, _, same, _⟩
    cases same
  · exact ⟨_, '日', "1 + ".toList, [], rfl, rfl, rfl, isPlain, rfl, by decide⟩

/-- A failure need not be located. -/
theorem failure_not_located :
    ¬ ∀ depth source failure,
      (run (Invoker.upTo Host.standard depth) source State.initial.1 State.initial.2).1 =
        .error failure →
      failure.diagnostic.canBeShown source = true := by
  intro always
  have fails : (run (Invoker.upTo Host.standard 0) "日" State.initial.1 State.initial.2).1 =
      .error (.syntaxError (.unrecognizedCharacter ⟨.character '日', 0, 3⟩)) :=
    Reading.eq_error_of_map (fun _ => ()) (by decide +kernel)
  exact absurd (always 0 "日" _ fails) (by decide +kernel)

end NanoScript
