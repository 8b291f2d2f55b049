import NanoScript.Proofs.Bracket.Agreement
import NanoScript.Proofs.Bracket.Program
import NanoScript.Proofs.Highlight.Terminal
import NanoScript.Proofs.Span
import NanoScript.Proofs.Token.Arrangement

/-!
Contract: colours never alter a line, and they are on the tokens that they are meant for.

Owns:
- slices of a text, which are a part of it and the range of bytes that it takes;
- tokens that stand in a text one behind the other, and the cut of the text at them;
- the brackets of a text are tokens of it;
- the theorem on highlighted lines: without the codes they are the line, and the coloured ranges are
  those of the two brackets at the cursor, of the keywords and of the numbers.
-/

namespace NanoScript

/-! ## Slices -/

/-- A part of a text, and the bytes that it takes there. -/
def Text.IsSlice (text : List Char) (span : Span) (part : List Char) : Prop :=
  ∃ before after, text = before ++ (part ++ after) ∧
    span = ⟨byteLength before, byteLength before + byteLength part⟩

theorem Text.IsSlice.inside {text part : List Char} {span : Span}
    (isSlice : IsSlice text span part) : span.Inside (byteLength text) := by
  obtain ⟨before, after, rfl, rfl⟩ := isSlice
  constructor
  · exact Nat.le_add_right _ _
  · simp only [byteLength_append]
    omega

/-! ## Tokens in a text -/

namespace Token

/-- Tokens that stand one behind the other in the text from a byte offset on, with the end-of-input
mark behind all of them. -/
inductive StandInOrder : Nat → List Char → List Token → Prop
  | mark (offset size : Nat) (text : List Char) : StandInOrder offset text [endOfInput size]
  | next {offset : Nat} {gap after : List Char} {token : Token} {rest : List Token}
      (noMark : token.kind ≠ .endOfInput)
      (span : token.span = ⟨offset + Text.byteLength gap,
        offset + Text.byteLength gap + Text.byteLength token.text.toList⟩)
      (later : StandInOrder token.span.stop after rest) :
      StandInOrder offset (gap ++ (token.text.toList ++ after)) (token :: rest)

/-- The tokens of a text stand in it in order.  The induction is over the scan, and the blanks since
the last token add up to the gap before the next one. -/
theorem Scans.standInOrder {offset : Nat} {text : List Char} {tokens : List Token}
    (scans : Scans offset text tokens) (start : Nat) (gap : List Char)
    (behind : offset = start + Text.byteLength gap) : StandInOrder start (gap ++ text) tokens := by
  induction scans generalizing start gap with
  | mark offset => exact .mark start offset _
  | @layout offset blank rest tokens _ _ inductionHypothesis =>
      rw [List.append_cons]
      apply inductionHypothesis
      simp [behind, Nat.add_assoc]
  | @lexeme offset first tail after kind tokens _ found later inductionHypothesis =>
      subst behind
      let token : Token := ⟨kind, String.ofList (first :: tail), start + Text.byteLength gap,
        start + Text.byteLength gap + Text.byteLength (first :: tail)⟩
      have characters : token.text.toList = first :: tail := String.toList_ofList
      have noMark : token.kind ≠ .endOfInput := (isLexical_of_lexeme found token.span).noMark
      have stand : StandInOrder start (gap ++ (token.text.toList ++ after)) (token :: tokens) := by
        refine .next noMark ?_ (inductionHypothesis _ [] rfl)
        rw [characters]
      rw [characters] at stand
      exact stand

/-- Tokens that stand in order and start at the same offset are the same. -/
theorem Arranged.eq_of_start {tokens : List Token} (arranged : Arranged tokens)
    {token other : Token} (member : token ∈ tokens) (isOther : other ∈ tokens)
    (same : token.span.start = other.span.start) : token = other := by
  have apart : tokens.Pairwise fun left right => left.span.start ≠ right.span.start := by
    refine arranged.behind.imp_of_mem fun {left right} isLeft _ behind => ?_
    have nonempty := arranged.nonempty left isLeft
    omega
  have symmetric : Std.Symm fun left right : Token => left.span.start ≠ right.span.start :=
    ⟨fun _ _ => Ne.symm⟩
  by_contra differ
  exact apart.forall member isOther differ same

/-! ## Brackets among tokens -/

/-- A token that begins with a bracket is this bracket. -/
theorem Kind.Matches.edge?_of_first {kind : Kind} {first : Char} {tail : List Char}
    {edge : Bracket.Edge} (isMatch : kind.Matches (first :: tail))
    (isEdge : Bracket.edge? first = some edge) : kind.edge? = some edge := by
  rcases isMatch.cases_first with ⟨areLetters, _⟩ | ⟨digit, _⟩ | ⟨isMark, _⟩
  · rw [edge?_of_isLetter (areLetters first List.mem_cons_self)] at isEdge
    cases isEdge
  · rw [edge?_of_isDigit digit] at isEdge
    cases isEdge
  · rw [edge?_eq_bind, isMark] at isEdge
    exact isEdge

/-- Behind the first character of a token no bracket stands. -/
theorem Kind.Matches.edge?_of_mem_tail {kind : Kind} {first c : Char} {tail : List Char}
    (isMatch : kind.Matches (first :: tail)) (member : c ∈ tail) : Bracket.edge? c = none := by
  rcases isMatch.cases_first with ⟨areLetters, _⟩ | ⟨_, isPlain, _⟩ | ⟨_, rfl⟩
  · exact edge?_of_isLetter (areLetters c (List.mem_cons_of_mem first member))
  · have noEdges := List.flatMap_eq_nil_iff.1 (edges_of_isPlain isPlain)
    exact Option.toList_eq_nil_iff.1 (noEdges c (List.mem_cons_of_mem first member))
  · cases member

/-- Every bracket of a text is the start of a token that is this bracket.  A blank is none, and in
a token only the first character can be one. -/
theorem Scans.exists_bracket {offset : Nat} {text : List Char} {tokens : List Token}
    (scans : Scans offset text tokens) {before after : List Char} {c : Char} {edge : Bracket.Edge}
    (split : text = before ++ c :: after) (isEdge : Bracket.edge? c = some edge) :
    ∃ token ∈ tokens, token.kind.edge? = some edge ∧
      token.span.start = offset + Text.byteLength before := by
  induction scans generalizing before with
  | mark offset => exact absurd split.symm (by simp)
  | @layout offset blank rest tokens layout _ inductionHypothesis =>
      cases before with
      | nil =>
          cases split
          rw [edge?_of_isLayout layout] at isEdge
          cases isEdge
      | cons head before =>
          cases split
          obtain ⟨token, member, ofKind, starts⟩ := inductionHypothesis rfl
          refine ⟨token, member, ofKind, ?_⟩
          rw [starts, Text.byteLength_cons, Nat.add_assoc]
  | @lexeme offset first tail later kind tokens _ found _ inductionHypothesis =>
      have isMatch := (leads_of_lexeme? found).suits.isMatch
      have behind (between : List Char) (isLater : later = between ++ c :: after) :
          ∃ token ∈ tokens, token.kind.edge? = some edge ∧
            token.span.start = offset + Text.byteLength (first :: (tail ++ between)) := by
        obtain ⟨token, member, ofKind, starts⟩ := inductionHypothesis isLater
        refine ⟨token, member, ofKind, ?_⟩
        rw [starts, ← List.cons_append, Text.byteLength_append, Nat.add_assoc]
      cases before with
      | nil =>
          cases split
          exact ⟨_, List.mem_cons_self, isMatch.edge?_of_first isEdge, rfl⟩
      | cons head before =>
          rw [List.cons_append, List.cons.injEq] at split
          obtain ⟨rfl, split⟩ := split
          rcases List.append_eq_append_iff.1 split with
            ⟨between, rfl, isLater⟩ | ⟨inside, isTail, isRest⟩
          · obtain ⟨token, member, found⟩ := behind between isLater
            exact ⟨token, List.mem_cons_of_mem _ member, found⟩
          · cases inside with
            | nil =>
                obtain ⟨token, member, found⟩ := behind [] isRest.symm
                rw [isTail, List.append_nil, List.append_nil] at found
                exact ⟨token, List.mem_cons_of_mem _ member, found⟩
            | cons head inside =>
                cases isRest
                have member : c ∈ tail := by
                  rw [isTail]
                  exact List.mem_append_right _ List.mem_cons_self
                rw [isMatch.edge?_of_mem_tail member] at isEdge
                cases isEdge

end Token

/-! ## The cut of a line -/

namespace Highlight

open Token

/-- The tokens that are cut out of a text, which are all but the end-of-input mark. -/
def lexemes (tokens : List Token) : List Token :=
  tokens.filter fun token => token.kind ≠ .endOfInput

/-- The ranges that the rest of a text is cut into, from a byte offset on: those of its tokens, that
before each of them, and that behind the last one. -/
def cuts (size offset : Nat) : List Token → List Span
  | [] => [⟨offset, size⟩]
  | token :: rest => ⟨offset, token.span.start⟩ :: token.span :: cuts size token.span.stop rest

variable {pair : Option Bracket.Pair} {offset : Nat} {text gap after : List Char} {token : Token}
  {tokens rest : List Token}

theorem lexemes_cons (noMark : token.kind ≠ .endOfInput) (rest : List Token) :
    lexemes (token :: rest) = token :: lexemes rest := by
  simp [lexemes, noMark]

/-- At a token the text is cut into what is before the token, the token, and the rest. -/
theorem segmentsFrom_next (noMark : token.kind ≠ .endOfInput)
    (span : token.span = ⟨offset + Text.byteLength gap,
      offset + Text.byteLength gap + Text.byteLength token.text.toList⟩) :
    segmentsFrom pair offset (gap ++ (token.text.toList ++ after)) (token :: rest) =
      ⟨.plain, gap⟩ :: ⟨paintOf pair token, token.text.toList⟩ ::
        segmentsFrom pair token.span.stop after rest := by
  have beforeToken : token.span.start - offset = Text.byteLength gap := by
    rw [span]
    exact Nat.add_sub_cancel_left _ _
  have inToken : token.span.length = Text.byteLength token.text.toList := by
    rw [span]
    exact Nat.add_sub_cancel_left _ _
  rw [segmentsFrom, if_neg noMark, beforeToken, inToken]
  simp only [Text.splitAtByte_byteLength]

/-- The segments of a text have all of it. -/
theorem textOf_segmentsFrom (stand : StandInOrder offset text tokens) :
    textOf (segmentsFrom pair offset text tokens) = text := by
  induction stand with
  | mark offset size text => exact List.append_nil text
  | next noMark span _ inductionHypothesis =>
      rw [segmentsFrom_next noMark span, textOf, List.flatMap_cons, List.flatMap_cons, ← textOf,
        inductionHypothesis]

/-- The segments of a text are its slices at the cuts.  What was cut already stands before them. -/
theorem isSlice_segmentsFrom (pair : Option Bracket.Pair)
    (stand : StandInOrder offset text tokens) (scanned : List Char)
    (behind : offset = Text.byteLength scanned) :
    List.Forall₂ (fun span segment => Text.IsSlice (scanned ++ text) span segment.text)
      (cuts (offset + Text.byteLength text) offset (lexemes tokens))
      (segmentsFrom pair offset text tokens) := by
  induction stand generalizing scanned with
  | mark offset size text =>
      refine .cons ⟨scanned, [], ?_, ?_⟩ .nil
      · rw [List.append_nil]
      · rw [behind]
  | @next offset gap after token rest noMark span _ inductionHypothesis =>
      subst behind
      rw [segmentsFrom_next noMark span, lexemes_cons noMark, cuts]
      refine .cons ⟨scanned, token.text.toList ++ after, rfl, ?_⟩
        (.cons ⟨scanned ++ gap, after, ?_, ?_⟩ ?_)
      · rw [span]
      · rw [List.append_assoc]
      · rw [span, Text.byteLength_append]
      · have place : token.span.stop =
            Text.byteLength (scanned ++ (gap ++ token.text.toList)) := by
          rw [span]
          simp [Nat.add_assoc]
        have size : Text.byteLength scanned +
            Text.byteLength (gap ++ (token.text.toList ++ after)) =
              token.span.stop + Text.byteLength after := by
          rw [place]
          simp [Nat.add_assoc]
        have later := inductionHypothesis (scanned ++ (gap ++ token.text.toList)) place
        rw [List.append_assoc, List.append_assoc] at later
        rw [size]
        exact later

/-- The painted segments of a text are its tokens that have a paint with a code. -/
theorem paintedFrom_segmentsFrom (stand : StandInOrder offset text tokens) :
    paintedFrom offset (segmentsFrom pair offset text tokens) =
      (lexemes tokens).filterMap fun token =>
        (paintOf pair token).code?.map fun code => (token.span, code) := by
  induction stand with
  | mark offset size text => rfl
  | @next offset gap after token rest noMark span _ inductionHypothesis =>
      have whole : (⟨offset + Text.byteLength gap, offset + Text.byteLength gap +
          Text.byteLength token.text.toList⟩ : Span) = token.span :=
        span.symm
      have stop : offset + Text.byteLength gap + Text.byteLength token.text.toList =
          token.span.stop :=
        congrArg Span.stop whole
      rw [segmentsFrom_next noMark span, lexemes_cons noMark, List.filterMap_cons,
        ← inductionHypothesis, paintedFrom]
      change paintedFrom _ (_ :: _) = _
      rw [paintedFrom]
      dsimp only
      rw [whole, stop]
      cases (paintOf pair token).code? <;> rfl

theorem mem_lexemes : token ∈ lexemes tokens ↔ token ∈ tokens ∧ token.kind ≠ .endOfInput := by
  simp [lexemes]

/-! ## Paints -/

/-- A token starts at one of the brackets of a pair. -/
def IsPaired (pair : Option Bracket.Pair) (token : Token) : Prop :=
  ∃ brackets, pair = some brackets ∧ brackets.StandsAt token.span.start

theorem paintOf_of_isPaired (isPaired : IsPaired pair token) : paintOf pair token = .bracket := by
  obtain ⟨brackets, rfl, stands⟩ := isPaired
  exact if_pos (decide_eq_true stands)

theorem paintOf_of_not_isPaired (notPaired : ¬ IsPaired pair token) :
    paintOf pair token =
      if token.kind.isKeyword then .keyword else if token.kind = .number then .number
      else .plain := by
  unfold paintOf
  refine if_neg fun isPaired => notPaired ?_
  cases pair with
  | none => cases isPaired
  | some brackets => exact ⟨brackets, rfl, of_decide_eq_true isPaired⟩

/-- If every token at the pair is a bracket, the codes do not get in the way of one another. -/
theorem code?_paintOf_iff {code : String}
    (areEdges : IsPaired pair token → token.kind.edge? ≠ none) :
    (paintOf pair token).code? = some code ↔
      code = "1;34" ∧ IsPaired pair token ∨ code = "35" ∧ token.kind.isKeyword = true ∨
        code = "33" ∧ token.kind = .number := by
  by_cases isPaired : IsPaired pair token
  · have isEdge := areEdges isPaired
    have noKeyword : token.kind.isKeyword = false := by
      cases ofKind : token.kind <;> first | rfl | exact absurd (congrArg Kind.edge? ofKind) isEdge
    have noNumber : token.kind ≠ .number := fun isNumber =>
      isEdge (congrArg Kind.edge? isNumber)
    simp [paintOf_of_isPaired isPaired, Paint.code?, isPaired, noKeyword, noNumber, eq_comm]
  · rw [paintOf_of_not_isPaired isPaired]
    split
    · next isKeyword =>
        have noNumber : token.kind ≠ .number := by
          intro isNumber
          rw [isNumber] at isKeyword
          cases isKeyword
        simp [Paint.code?, isPaired, isKeyword, noNumber, eq_comm]
    · next noKeyword =>
        split
        · next isNumber => simp [Paint.code?, isPaired, isNumber, Kind.isKeyword, eq_comm]
        · next noNumber => simp [Paint.code?, isPaired, noKeyword, noNumber]

/-! ## Highlighted lines -/

section Lines

variable {line : String} {cursor : Nat}

theorem arranged_lexemes (found : Token.scan line = .ok tokens) : Arranged (lexemes tokens) := by
  obtain ⟨before, mark, rfl, isMark, areLexical⟩ := Token.exists_of_scan found
  have isBefore : lexemes (before ++ [mark]) = before := by
    unfold lexemes
    rw [List.filter_append, List.filter_cons_of_neg (by simp [isMark]), List.filter_nil,
      List.append_nil, List.filter_eq_self]
    exact fun token member => decide_eq_true (areLexical token member).noMark
  rw [isBefore]
  exact (arranged_of_scan found).1

/-- The two brackets that are found at a cursor are tokens, and no other tokens start there. -/
theorem exists_tokens_of_pairAt? {brackets : Bracket.Pair} (found : Token.scan line = .ok tokens)
    (isPair : Bracket.pairAt? line cursor = some brackets) :
    ∃ opening ∈ lexemes tokens, ∃ closing ∈ lexemes tokens, ∃ shape,
      opening.kind.edge? = some (.opening shape) ∧ closing.kind.edge? = some (.closing shape) ∧
      opening.span.start = brackets.opening ∧ closing.span.start = brackets.closing ∧
      ∀ token ∈ lexemes tokens,
        brackets.StandsAt token.span.start ↔ token = opening ∨ token = closing := by
  have matched := ((Bracket.pairAt?_eq_some_iff line cursor brackets).1 isPair).1
  obtain ⟨shape, ⟨_, _, _, split, place, opens⟩, ⟨_, _, _, closingSplit, closingPlace, closes⟩⟩ :=
    matched.hasEdges
  have scans := Token.scans_of_scan found
  obtain ⟨opening, isOpening, opens, starts⟩ := scans.exists_bracket split opens
  obtain ⟨closing, isClosing, closes, closingStarts⟩ := scans.exists_bracket closingSplit closes
  rw [place, Nat.zero_add] at starts
  rw [closingPlace, Nat.zero_add] at closingStarts
  have noMark {token : Token} {edge : Bracket.Edge} (isEdge : token.kind.edge? = some edge) :
      token.kind ≠ .endOfInput := by
    intro isMark
    rw [isMark] at isEdge
    cases isEdge
  have isOpening := mem_lexemes.2 ⟨isOpening, noMark opens⟩
  have isClosing := mem_lexemes.2 ⟨isClosing, noMark closes⟩
  have arranged := arranged_lexemes found
  refine ⟨opening, isOpening, closing, isClosing, shape, opens, closes, starts, closingStarts,
    fun token member => ⟨?_, ?_⟩⟩
  · rintro (atOpening | atClosing)
    · exact .inl (arranged.eq_of_start member isOpening (atOpening.trans starts.symm))
    · exact .inr (arranged.eq_of_start member isClosing (atClosing.trans closingStarts.symm))
  · rintro (rfl | rfl)
    · exact .inl starts
    · exact .inr closingStarts

theorem edge?_ne_none_of_isPaired (found : Token.scan line = .ok tokens)
    (member : token ∈ lexemes tokens) (isPaired : IsPaired (Bracket.pairAt? line cursor) token) :
    token.kind.edge? ≠ none := by
  obtain ⟨brackets, isPair, stands⟩ := isPaired
  obtain ⟨opening, _, closing, _, shape, opens, closes, _, _, onlyThese⟩ :=
    exists_tokens_of_pairAt? found isPair
  rcases (onlyThese token member).1 stands with rfl | rfl
  · rw [opens]
    exact Option.some_ne_none _
  · rw [closes]
    exact Option.some_ne_none _

theorem segments_eq (found : Token.scan line = .ok tokens) :
    segments line cursor =
      segmentsFrom (Bracket.pairAt? line cursor) 0 line.toList tokens := by
  unfold segments
  rw [found]

theorem standInOrder_of_scan (found : Token.scan line = .ok tokens) :
    StandInOrder 0 line.toList tokens :=
  (Token.scans_of_scan found).standInOrder 0 [] rfl

theorem textOf_segments (found : Token.scan line = .ok tokens) :
    textOf (segments line cursor) = line.toList := by
  rw [segments_eq found, textOf_segmentsFrom (standInOrder_of_scan found)]

/-- A line with tokens has no escape character, so every code in it is one that was put there. -/
theorem noEscape_of_scan (found : Token.scan line = .ok tokens) :
    ∀ c ∈ textOf (segments line cursor), c ≠ '\x1b' := by
  rw [textOf_segments found]
  rintro c member rfl
  have admissible := ((Token.scans_of_scan found).exact [] rfl).1 _ member
  exact absurd admissible (by decide)

theorem coloured_highlight (found : Token.scan line = .ok tokens) :
    Terminal.coloured (highlight line cursor) =
      (lexemes tokens).filterMap fun token =>
        (paintOf (Bracket.pairAt? line cursor) token).code?.map fun code => (token.span, code) := by
  rw [highlight, coloured_render (noEscape_of_scan found), segments_eq found,
    paintedFrom_segmentsFrom (standInOrder_of_scan found)]

/-- The coloured ranges are those of the brackets at the cursor, the keywords and the numbers. -/
theorem mem_coloured_highlight {span : Span} {code : String}
    (found : Token.scan line = .ok tokens) :
    (span, code) ∈ Terminal.coloured (highlight line cursor) ↔
      ∃ token ∈ lexemes tokens, token.span = span ∧
        (code = "1;34" ∧ IsPaired (Bracket.pairAt? line cursor) token ∨
          code = "35" ∧ token.kind.isKeyword = true ∨ code = "33" ∧ token.kind = .number) := by
  have codes : ∀ token ∈ lexemes tokens,
      (paintOf (Bracket.pairAt? line cursor) token).code? = some code ↔ _ :=
    fun _ member => code?_paintOf_iff (edge?_ne_none_of_isPaired found member)
  simp only [coloured_highlight found, List.mem_filterMap, Option.map_eq_some_iff, Prod.mk.injEq]
  constructor
  · rintro ⟨token, member, _, isCode, same, rfl⟩
    exact ⟨token, member, same, (codes token member).1 isCode⟩
  · rintro ⟨token, member, same, colour⟩
    exact ⟨token, member, code, (codes token member).2 colour, same, rfl⟩

theorem slices_highlight (found : Token.scan line = .ok tokens) :
    List.Forall₂ (fun span segment =>
        span.Inside line.utf8ByteSize ∧ Text.IsSlice line.toList span segment.text)
      (cuts line.utf8ByteSize 0 (lexemes tokens)) (segments line cursor) := by
  have slices := isSlice_segmentsFrom (Bracket.pairAt? line cursor)
    (standInOrder_of_scan found) [] rfl
  rw [Nat.zero_add, Text.byteLength_toList, ← segments_eq found] at slices
  refine slices.imp fun span segment isSlice => ⟨?_, isSlice⟩
  rw [← Text.byteLength_toList]
  exact isSlice.inside

theorem order_coloured (found : Token.scan line = .ok tokens) :
    (Terminal.coloured (highlight line cursor)).Pairwise fun left right =>
      left.1.stop ≤ right.1.start := by
  rw [coloured_highlight found]
  refine (arranged_lexemes found).behind.filterMap _ fun left right behind => ?_
  simp only [Option.map_eq_some_iff]
  rintro _ ⟨_, _, rfl⟩ _ ⟨_, _, rfl⟩
  exact behind

/-- What is true of a line with tokens once it is highlighted. -/
structure ShowsLine (line : String) (cursor : Nat) (tokens : List Token) : Prop where
  /-- Without the codes it is the line. -/
  text : Terminal.withoutCodes (highlight line cursor) = line
  /-- The line is cut at its tokens, always inside of it and between two characters. -/
  slices : List.Forall₂ (fun span segment =>
      span.Inside line.utf8ByteSize ∧ Text.IsSlice line.toList span segment.text)
    (cuts line.utf8ByteSize 0 (lexemes tokens)) (segments line cursor)
  order : (Terminal.coloured (highlight line cursor)).Pairwise fun left right =>
    left.1.stop ≤ right.1.start
  /-- The tokens at the brackets that are found are bold blue, the keywords magenta and the numbers
  yellow, and nothing else has a colour. -/
  colours : ∀ span code, (span, code) ∈ Terminal.coloured (highlight line cursor) ↔
    ∃ token ∈ lexemes tokens, token.span = span ∧
      (code = "1;34" ∧ IsPaired (Bracket.pairAt? line cursor) token ∨
        code = "35" ∧ token.kind.isKeyword = true ∨ code = "33" ∧ token.kind = .number)
  /-- The tokens at the brackets that are found are these two brackets, which have one shape. -/
  brackets : ∀ pair, Bracket.pairAt? line cursor = some pair →
    ∃ opening ∈ lexemes tokens, ∃ closing ∈ lexemes tokens, ∃ shape,
      opening.kind.edge? = some (.opening shape) ∧ closing.kind.edge? = some (.closing shape) ∧
      opening.span.start = pair.opening ∧ closing.span.start = pair.closing ∧
      ∀ token ∈ lexemes tokens,
        pair.StandsAt token.span.start ↔ token = opening ∨ token = closing

theorem showsLine_of_scan (found : Token.scan line = .ok tokens) :
    ShowsLine line cursor tokens where
  text := by
    rw [highlight, withoutCodes_render (noEscape_of_scan found), textOf_segments found,
      String.ofList_toList]
  slices := slices_highlight found
  order := order_coloured found
  colours _ _ := mem_coloured_highlight found
  brackets _ isPair := exists_tokens_of_pairAt? found isPair

end Lines

/-- A line without tokens is shown as it is.  Any other one gets codes around the brackets at the
cursor, the keywords and the numbers, and nothing else in it changes. -/
theorem highlight_shows_line (line : String) (cursor : Nat) :
    match Token.scan line with
    | .error _ => highlight line cursor = line
    | .ok tokens => ShowsLine line cursor tokens := by
  cases found : Token.scan line with
  | error fault =>
      unfold highlight segments
      rw [found]
      simp [render, Paint.apply, Paint.code?]
  | ok tokens => exact showsLine_of_scan found

example :
    highlight "let a = (1)" 11 =
      "\x1b[35mlet\x1b[0m a = \x1b[1;34m(\x1b[0m\x1b[33m1\x1b[0m\x1b[1;34m)\x1b[0m" := by
  decide +kernel

end Highlight

end NanoScript
