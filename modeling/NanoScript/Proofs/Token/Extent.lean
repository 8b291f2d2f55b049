import NanoScript.Proofs.Span
import NanoScript.Proofs.Token.Spelling

/-!
Contract: where the tokens of a source text lie.

Owns:
- scans as derivations: blanks and lexemes one behind the other, the end-of-input mark last;
- the order of tokens: each starts where the one before it stops, or later, and all lie inside the
  text;
- the ranges that reach from one token to another;
- the scan of a text at another offset, and of a text with another one behind it.
-/

namespace NanoScript

/-! ## Lexemes before other texts -/

namespace Token

/-- What a search takes from the front of a text, it takes with a text behind on which it would
stop at once. -/
theorem takeWhile_append_of_stops {test : Char → Bool} {later : List Char}
    (stops : later.takeWhile test = []) (text : List Char) :
    (text ++ later).takeWhile test = text.takeWhile test := by
  rw [List.takeWhile_append]
  split
  · next whole =>
      rw [stops, List.append_nil]
      exact (List.takeWhile_prefix test).eq_of_length whole |>.symm
  · rfl

theorem Breaks.not_isDigit_head {later : List Char} (breaks : Breaks later) {next : Char}
    {rest : List Char} (split : later = next :: rest) : ¬ isDigit next = true := by
  rw [split] at breaks
  rw [isDigit_eq, breaks.2.1]
  exact Bool.false_ne_true

theorem numeralTail_append {later : List Char} (breaks : Breaks later) (text : List Char) :
    numeralTail (text ++ later) = numeralTail text := by
  have stops := breaks.takeWhile_isDigit
  unfold numeralTail
  dsimp only
  rw [takeWhile_append_of_stops stops, List.dropWhile_append]
  cases text.dropWhile isDigit with
  | nil =>
      -- A numeral that reaches up to the joint could only go on with a fraction behind it.
      rw [if_pos List.isEmpty_nil]
      cases later with
      | nil => rfl
      | cons c others =>
          rw [List.dropWhile_cons_of_neg (breaks.not_isDigit_head rfl)]
          split
          · next same =>
              cases same
              exact if_neg (by rw [isDigit_eq, breaks.2.2 rfl _ rfl]; decide)
          · rfl
  | cons c others =>
      rw [if_neg (by simp)]
      by_cases dot : c = '.'
      · subst dot
        cases others with
        | nil =>
            cases later with
            | nil => rfl
            | cons figure others => exact if_neg (breaks.not_isDigit_head rfl)
        | cons figure others =>
            change (if isDigit figure = true then _ ++ '.' :: figure ::
              (others ++ later).takeWhile isDigit else _) = if isDigit figure = true then _ else _
            rw [takeWhile_append_of_stops stops]
      · -- What does not start with a fraction mark is no fraction, whatever is behind it.
        split
        · next same => exact absurd (List.cons.inj same).1 dot
        · split
          · next same => exact absurd (List.cons.inj same).1 dot
          · rfl

theorem numeralTail_prefix (text : List Char) : numeralTail text <+: text := by
  have whole : text.takeWhile isDigit <+: text := List.takeWhile_prefix isDigit
  unfold numeralTail
  dsimp only
  split
  · next figure later split =>
      split
      · refine ⟨later.dropWhile isDigit, ?_⟩
        rw [List.append_assoc, List.cons_append, List.cons_append, List.takeWhile_append_dropWhile,
          ← split, List.takeWhile_append_dropWhile]
      · exact whole
  · exact whole

/-- The characters of a lexeme stand at the front of the text, and a text that no word goes on with
changes nothing in them. -/
theorem lexeme?_append {first : Char} {rest tail : List Char} {kind : Kind}
    (found : lexeme? first rest = some (kind, tail)) :
    ∃ after, rest = tail ++ after ∧
      ∀ later, Breaks later → lexeme? first (rest ++ later) = some (kind, tail) := by
  unfold lexeme? at found
  split at found
  · next letter =>
      cases found
      refine ⟨rest.dropWhile isLetter, List.takeWhile_append_dropWhile.symm, ?_⟩
      intro later breaks
      unfold lexeme?
      rw [if_pos letter, takeWhile_append_of_stops breaks.takeWhile_isLetter]
  · next notLetter =>
      split at found
      · next digit =>
          cases found
          obtain ⟨after, split⟩ := numeralTail_prefix rest
          refine ⟨after, split.symm, ?_⟩
          intro later breaks
          unfold lexeme?
          rw [if_neg notLetter, if_pos digit, numeralTail_append breaks]
      · next notDigit =>
          obtain ⟨mark, isMark, same⟩ := Option.map_eq_some_iff.1 found
          cases same
          refine ⟨rest, rfl, ?_⟩
          intro later _
          unfold lexeme?
          rw [if_neg notLetter, if_neg notDigit]
          exact found

/-! ## Scans as derivations -/

/-- The tokens of a text from an offset on: blanks and lexemes one behind the other, and the
end-of-input mark behind all of them. -/
inductive Scans : Nat → List Char → List Token → Prop
  | mark (offset : Nat) : Scans offset [] [endOfInput offset]
  | layout {offset : Nat} {c : Char} {rest : List Char} {tokens : List Token}
      (isLayout : isLayout c = true) (later : Scans (offset + c.utf8Size) rest tokens) :
      Scans offset (c :: rest) tokens
  | lexeme {offset : Nat} {first : Char} {tail after : List Char} {kind : Kind}
      {tokens : List Token} (notLayout : isLayout first = false)
      (found : lexeme? first (tail ++ after) = some (kind, tail))
      (later : Scans (offset + Text.byteLength (first :: tail)) after tokens) :
      Scans offset (first :: (tail ++ after))
        (⟨kind, String.ofList (first :: tail), offset,
          offset + Text.byteLength (first :: tail)⟩ :: tokens)

theorem scans_of_scanFrom {offset : Nat} {text : List Char} {tokens : List Token}
    (found : scanFrom offset text = .ok tokens) : Scans offset text tokens := by
  induction offset, text using scanFrom.induct generalizing tokens with
  | case1 offset =>
      rw [scanFrom] at found
      cases found
      exact .mark offset
  | case2 offset first rest layout inductionHypothesis =>
      rw [scanFrom, if_pos layout] at found
      exact .layout layout (inductionHypothesis found)
  | case3 offset first rest notLayout noLexeme =>
      rw [scanFrom, if_neg notLayout, noLexeme] at found
      cases found
  | case4 offset first rest notLayout kind tail lexeme stop =>
      rename_i inductionHypothesis
      obtain ⟨after, rfl, _⟩ := lexeme?_append lexeme
      have isSplit : isLayout first = false := Bool.eq_false_iff.2 notLayout
      rw [scanFrom_lexeme offset isSplit lexeme] at found
      rw [List.drop_left] at inductionHypothesis
      cases later : scanFrom (offset + Text.byteLength (first :: tail)) after with
      | error fault =>
          rw [later] at found
          cases found
      | ok others =>
          rw [later] at found
          cases found
          exact .lexeme isSplit lexeme (inductionHypothesis later)

namespace Scans

variable {offset : Nat} {text : List Char} {tokens : List Token}

theorem scanFrom_eq (scans : Scans offset text tokens) : scanFrom offset text = .ok tokens := by
  induction scans with
  | mark offset => rw [scanFrom]
  | layout isLayout _ inductionHypothesis =>
      rw [scanFrom_layout _ isLayout, inductionHypothesis]
  | lexeme notLayout found _ inductionHypothesis =>
      rw [scanFrom_lexeme _ notLayout found, inductionHypothesis]
      rfl

/-- The last token is the end-of-input mark at the size of the text.  In its place the tokens of
another text may stand, if no word goes on with that text. -/
theorem exists_before (scans : Scans offset text tokens) :
    ∃ before, tokens = before ++ [endOfInput (offset + Text.byteLength text)] ∧
      ∀ right rest, Breaks right → Scans (offset + Text.byteLength text) right rest →
        Scans offset (text ++ right) (before ++ rest) := by
  induction scans with
  | mark offset => exact ⟨[], rfl, fun _ _ _ later => later⟩
  | @layout offset c rest tokens isLayout _ inductionHypothesis =>
      obtain ⟨before, split, joins⟩ := inductionHypothesis
      rw [Text.byteLength_cons, ← Nat.add_assoc]
      exact ⟨before, split, fun right rest breaks later =>
        .layout isLayout (joins right rest breaks later)⟩
  | @lexeme offset first tail after kind tokens notLayout found _ inductionHypothesis =>
      obtain ⟨before, split, joins⟩ := inductionHypothesis
      obtain ⟨_, _, stable⟩ := lexeme?_append found
      rw [← List.cons_append, Text.byteLength_append, ← Nat.add_assoc]
      refine ⟨_ :: before, congrArg (_ :: ·) split, fun right rest breaks later => ?_⟩
      rw [List.append_assoc, List.cons_append]
      refine .lexeme notLayout ?_ (joins right rest breaks later)
      rw [← List.append_assoc]
      exact stable right breaks

end Scans

/-! ## Tokens one behind the other -/

/-- Tokens that lie inside a text of some size, each starting where the one before it stops, or
later. -/
structure InOrder (size : Nat) (tokens : List Token) : Prop where
  inside : ∀ token ∈ tokens, token.span.Inside size
  behind : tokens.Pairwise fun left right => left.span.stop ≤ right.span.start

theorem InOrder.le {size : Nat} {tokens : List Token} (inOrder : InOrder size tokens)
    {first last : Nat} (order : first ≤ last) {left right : Token}
    (isFirst : tokens[first]? = some left) (isLast : tokens[last]? = some right) :
    left.span.start ≤ right.span.start ∧ left.span.stop ≤ right.span.stop := by
  rcases Nat.lt_or_eq_of_le order with before | rfl
  · obtain ⟨firstBound, rfl⟩ := List.getElem?_eq_some_iff.1 isFirst
    obtain ⟨lastBound, rfl⟩ := List.getElem?_eq_some_iff.1 isLast
    have behind := List.pairwise_iff_getElem.1 inOrder.behind first last firstBound lastBound before
    have leftInside := inOrder.inside _ (List.getElem_mem firstBound)
    have rightInside := inOrder.inside _ (List.getElem_mem lastBound)
    exact ⟨Nat.le_trans leftInside.ordered behind, Nat.le_trans behind rightInside.ordered⟩
  · cases isFirst.symm.trans isLast
    exact ⟨Nat.le_refl _, Nat.le_refl _⟩

/-- A range reaches from the start of one token of a list to the end of another one. -/
def Covers (tokens : List Token) (first last : Nat) (span : Span) : Prop :=
  ∃ left right, tokens[first]? = some left ∧ tokens[last]? = some right ∧
    span = ⟨left.span.start, right.span.stop⟩

theorem covers_token {tokens : List Token} {index : Nat} {token : Token}
    (found : tokens[index]? = some token) : Covers tokens index index token.span :=
  ⟨token, token, found, found, rfl⟩

/-- The smallest range around two others reaches from the earlier start to the later end. -/
theorem Covers.merge {size : Nat} {tokens : List Token} (inOrder : InOrder size tokens)
    {first last otherFirst otherLast : Nat} {span other : Span}
    (covers : Covers tokens first last span) (others : Covers tokens otherFirst otherLast other) :
    Covers tokens (min first otherFirst) (max last otherLast) (span.merge other) := by
  obtain ⟨left, right, isFirst, isLast, rfl⟩ := covers
  obtain ⟨otherLeft, otherRight, isOtherFirst, isOtherLast, rfl⟩ := others
  have starts : ∃ token, tokens[min first otherFirst]? = some token ∧
      token.span.start = min left.span.start otherLeft.span.start := by
    rcases Nat.le_total first otherFirst with order | order
    · rw [Nat.min_eq_left order, Nat.min_eq_left (inOrder.le order isFirst isOtherFirst).1]
      exact ⟨left, isFirst, rfl⟩
    · rw [Nat.min_eq_right order, Nat.min_eq_right (inOrder.le order isOtherFirst isFirst).1]
      exact ⟨otherLeft, isOtherFirst, rfl⟩
  have stops : ∃ token, tokens[max last otherLast]? = some token ∧
      token.span.stop = max right.span.stop otherRight.span.stop := by
    rcases Nat.le_total last otherLast with order | order
    · rw [Nat.max_eq_right order, Nat.max_eq_right (inOrder.le order isLast isOtherLast).2]
      exact ⟨otherRight, isOtherLast, rfl⟩
    · rw [Nat.max_eq_left order, Nat.max_eq_left (inOrder.le order isOtherLast isLast).2]
      exact ⟨right, isLast, rfl⟩
  obtain ⟨start, isStart, sameStart⟩ := starts
  obtain ⟨stop, isStop, sameStop⟩ := stops
  exact ⟨start, stop, isStart, isStop, congrArg₂ Span.mk sameStart.symm sameStop.symm⟩

/-- The tokens of a text lie one behind the other from the offset on. -/
theorem Scans.inOrder {offset : Nat} {text : List Char} {tokens : List Token}
    (scans : Scans offset text tokens) :
    (∀ token ∈ tokens, offset ≤ token.span.start) ∧
      InOrder (offset + Text.byteLength text) tokens := by
  induction scans with
  | mark offset =>
      refine ⟨?_, ?_, List.pairwise_singleton _ _⟩
      · intro token member
        cases List.mem_singleton.1 member
        exact Nat.le_refl offset
      · intro token member
        cases List.mem_singleton.1 member
        exact Span.inside_empty (Nat.le_refl offset)
  | @layout offset c rest tokens isLayout _ inductionHypothesis =>
      obtain ⟨starts, inOrder⟩ := inductionHypothesis
      rw [Text.byteLength_cons, ← Nat.add_assoc]
      exact ⟨fun token member => Nat.le_trans (Nat.le_add_right _ _) (starts token member),
        inOrder⟩
  | @lexeme offset first tail after kind tokens notLayout found _ inductionHypothesis =>
      obtain ⟨starts, inOrder⟩ := inductionHypothesis
      rw [← List.cons_append, Text.byteLength_append, ← Nat.add_assoc]
      refine ⟨List.forall_mem_cons.2 ⟨Nat.le_refl _, fun token member => ?_⟩,
        List.forall_mem_cons.2 ⟨⟨Nat.le_add_right _ _, Nat.le_add_right _ _⟩, inOrder.inside⟩,
        List.pairwise_cons.2 ⟨starts, inOrder.behind⟩⟩
      exact Nat.le_trans (Nat.le_add_right _ _) (starts token member)

/-- The tokens of a source text are all different. -/
theorem Scans.nodup {offset : Nat} {text : List Char} {tokens : List Token}
    (scans : Scans offset text tokens) : tokens.Nodup := by
  induction scans with
  | mark offset => exact List.nodup_singleton _
  | layout _ _ inductionHypothesis => exact inductionHypothesis
  | @lexeme offset first tail after kind tokens _ _ later inductionHypothesis =>
      refine List.nodup_cons.2 ⟨fun member => ?_, inductionHypothesis⟩
      have starts := later.inOrder.1 _ member
      have positive := first.utf8Size_pos
      rw [Text.byteLength_cons] at starts
      dsimp only at starts
      omega

/-- A character that starts no token lies inside the text. -/
theorem inside_of_unrecognized {offset : Nat} {text : List Char} {fault : Unrecognized}
    (fails : scanFrom offset text = .error fault) :
    fault.span.Inside (offset + Text.byteLength text) := by
  induction offset, text using scanFrom.induct with
  | case1 offset =>
      rw [scanFrom] at fails
      cases fails
  | case2 offset first rest layout inductionHypothesis =>
      rw [scanFrom, if_pos layout] at fails
      rw [Text.byteLength_cons, ← Nat.add_assoc]
      exact inductionHypothesis fails
  | case3 offset first rest notLayout noLexeme =>
      rw [scanFrom, if_neg notLayout, noLexeme] at fails
      cases fails
      rw [Text.byteLength_cons, ← Nat.add_assoc]
      exact ⟨Nat.le_add_right _ _, Nat.le_add_right _ _⟩
  | case4 offset first rest notLayout kind tail lexeme stop =>
      rename_i inductionHypothesis
      obtain ⟨after, rfl, _⟩ := lexeme?_append lexeme
      rw [scanFrom_lexeme offset (Bool.eq_false_iff.2 notLayout) lexeme] at fails
      rw [List.drop_left] at inductionHypothesis
      rw [← List.cons_append, Text.byteLength_append, ← Nat.add_assoc]
      cases later : scanFrom (offset + Text.byteLength (first :: tail)) after with
      | error other =>
          rw [later] at fails
          cases fails
          exact inductionHypothesis later
      | ok others =>
          rw [later] at fails
          cases fails

/-! ## Moving a text -/

/-- A token a number of bytes further on. -/
def move (distance : Nat) (token : Token) : Token :=
  { token with span := token.span.move distance }

/-- A text further on has the same tokens further on. -/
theorem Scans.move {offset : Nat} {text : List Char} {tokens : List Token}
    (scans : Scans offset text tokens) (distance : Nat) :
    Scans (offset + distance) text (tokens.map (Token.move distance)) := by
  induction scans with
  | mark offset => exact .mark (offset + distance)
  | layout isLayout _ inductionHypothesis =>
      refine .layout isLayout ?_
      rw [Nat.add_right_comm]
      exact inductionHypothesis
  | @lexeme offset first tail after kind tokens notLayout found _ inductionHypothesis =>
      have moved : Token.move distance ⟨kind, String.ofList (first :: tail), offset,
          offset + Text.byteLength (first :: tail)⟩ =
          ⟨kind, String.ofList (first :: tail), offset + distance,
            offset + distance + Text.byteLength (first :: tail)⟩ :=
        congrArg (fun stop => Token.mk kind _ ⟨_, stop⟩) (Nat.add_right_comm ..)
      rw [List.map_cons, moved]
      refine .lexeme notLayout found ?_
      rw [Nat.add_right_comm]
      exact inductionHypothesis

/-! ## Whole texts -/

theorem scans_of_scan {source : String} {tokens : List Token} (found : scan source = .ok tokens) :
    Scans 0 source.toList tokens :=
  scans_of_scanFrom found

end Token

end NanoScript
