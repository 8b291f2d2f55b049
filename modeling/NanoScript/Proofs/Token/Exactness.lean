import NanoScript.Proofs.Token.Patterns

/-!
Contract: which texts have tokens, and exactly which tokens they have.

Owns:
- the characters that a text with tokens consists of;
- where a token stands in a text: its range, its kind and what cannot stand behind it;
- the theorem that a scan finds the tokens of a text and leaves nothing but blanks out, or reports
  the first character that no text with tokens has.
-/

namespace NanoScript.Token

/-! ## Characters -/

/-- The characters of keywords, names, numerals, blanks, marks and operators. -/
def isAdmissible (c : Char) : Bool :=
  isLetter c || isDigit c || isLayout c || "=()\x7b\x7d[]:;,.+-*/%".toList.contains c

/-- Every admissible character is one of the basic character set. -/
theorem lt_of_isAdmissible {c : Char} (admissible : isAdmissible c = true) : c.toNat < 128 := by
  have ofMark : "=()\x7b\x7d[]:;,.+-*/%".toList.all (·.toNat < 128) = true := by decide
  simp only [isAdmissible, Bool.or_eq_true, List.contains_iff_mem] at admissible
  rcases admissible with ((letter | digit) | layout) | mark
  · simp only [isLetter, Bool.or_eq_true, Bool.and_eq_true, decide_eq_true_eq, Char.le_def,
      UInt32.le_iff_toNat_le] at letter
    have upper : 'Z'.val.toNat < 128 := by decide
    have lower : 'z'.val.toNat < 128 := by decide
    change c.val.toNat < 128
    omega
  · simp only [isDigit, Bool.and_eq_true, decide_eq_true_eq, Char.le_def,
      UInt32.le_iff_toNat_le] at digit
    have upper : '9'.val.toNat < 128 := by decide
    change c.val.toNat < 128
    omega
  · simp only [isLayout, Bool.or_eq_true, decide_eq_true_eq] at layout
    rcases layout with ((blank | tab) | newline) | carriageReturn <;> subst c <;> decide
  · exact of_decide_eq_true (List.all_eq_true.1 ofMark c mark)

theorem isAdmissible_of_isLetter {c : Char} (letter : isLetter c = true) :
    isAdmissible c = true := by
  unfold isAdmissible
  rw [letter]
  rfl

theorem isAdmissible_of_isDigit {c : Char} (digit : isDigit c = true) : isAdmissible c = true := by
  unfold isAdmissible
  rw [digit, Bool.or_true]
  rfl

theorem isAdmissible_of_isLayout {c : Char} (layout : isLayout c = true) :
    isAdmissible c = true := by
  unfold isAdmissible
  rw [layout, Bool.or_true]
  rfl

theorem isAdmissible_of_matches {kind : Kind} {text : List Char} (isMatch : kind.Matches text) :
    ∀ c ∈ text, isAdmissible c = true := by
  cases isMatch with
  | fixed listed =>
      have all : ∀ entry ∈ Kind.fixedTexts, entry.1.toList.all isAdmissible = true := by decide
      have ofText := all _ listed
      rw [String.toList_ofList] at ofText
      exact List.all_eq_true.1 ofText
  | word nonempty areLetters => exact fun c member => isAdmissible_of_isLetter (areLetters c member)
  | numeral isPlain =>
      cases isPlain with
      | whole nonempty areDigits =>
          exact fun c member => isAdmissible_of_isDigit (areDigits c member)
      | fraction nonempty placesNonempty areDigits placesAreDigits =>
          refine List.forall_mem_append.2 ⟨?_, List.forall_mem_cons.2 ⟨by decide, ?_⟩⟩
          · exact fun c member => isAdmissible_of_isDigit (areDigits c member)
          · exact fun c member => isAdmissible_of_isDigit (placesAreDigits c member)

/-- A character that is admissible and no layout starts a token. -/
theorem lexeme?_ne_none {first : Char} (admissible : isAdmissible first = true)
    (notLayout : isLayout first = false) (rest : List Char) : lexeme? first rest ≠ none := by
  have ofMark : "=()\x7b\x7d[]:;,.+-*/%".toList.all (Kind.ofMark? · ≠ none) = true := by decide
  simp only [isAdmissible, Bool.or_eq_true, List.contains_iff_mem, notLayout] at admissible
  unfold lexeme?
  split
  · exact Option.some_ne_none _
  · next notLetter =>
      split
      · exact Option.some_ne_none _
      · next notDigit =>
          intro noMark
          rcases admissible with ((letter | digit) | layout) | mark
          · exact notLetter letter
          · exact notDigit digit
          · cases layout
          · have isMark := of_decide_eq_true (List.all_eq_true.1 ofMark first mark)
            exact isMark (Option.map_eq_none_iff.1 noMark)

/-! ## Tokens in a text -/

/-- Where a token stands in a text, between what is before and what is behind it. -/
structure StandsBetween (token : Token) (before after : List Char) : Prop where
  span : token.span =
    ⟨Text.byteLength before, Text.byteLength before + Text.byteLength token.text.toList⟩
  nonempty : token.span.start < token.span.stop
  kind : token.kind.Suits token.text.toList
  noLetter : (∀ c ∈ token.text.toList, isLetter c = true) →
    ∀ next, after.head? = some next → isLetter next = false
  noDigit : token.kind = .number → ∀ next, after.head? = some next → isDigit next = false
  noFraction : (∀ c ∈ token.text.toList, isDigit c = true) →
    ∀ figure later, after = '.' :: figure :: later → isDigit figure = false

/-- A token stands somewhere in a text. -/
def StandsIn (token : Token) (text : List Char) : Prop :=
  ∃ before after, text = before ++ (token.text.toList ++ after) ∧ token.StandsBetween before after

/-- The bytes of a character lie in the range of a token. -/
def Holds (token : Token) (offset : Nat) (c : Char) : Prop :=
  token.span.start ≤ offset ∧ offset + c.utf8Size ≤ token.span.stop

theorem standsBetween_of_lexeme {before tail after : List Char} {first : Char} {kind : Kind}
    (found : lexeme? first (tail ++ after) = some (kind, tail)) :
    StandsBetween ⟨kind, String.ofList (first :: tail), Text.byteLength before,
      Text.byteLength before + Text.byteLength (first :: tail)⟩ before after := by
  have leads := leads_of_lexeme? found
  have positive : 0 < Text.byteLength (first :: tail) :=
    Nat.lt_of_lt_of_le first.utf8Size_pos (Nat.le_add_right _ _)
  refine ⟨?_, ?_, ?_, ?_, ?_, ?_⟩
  · rw [String.toList_ofList]
  · exact Nat.lt_add_of_pos_right positive
  · rw [String.toList_ofList]
    exact leads.suits
  · rw [String.toList_ofList]
    exact fun areLetters _ isNext => leads.not_isLetter areLetters isNext
  · intro isNumber _ isNext
    change kind = .number at isNumber
    rw [isNumber] at leads
    exact leads.not_isDigit isNext
  · rw [String.toList_ofList]
    exact fun areDigits _ _ isNext => leads.not_fraction areDigits isNext

/-- Behind what is scanned already, every character of a text is a blank or belongs to a token. -/
def Fill (tokens : List Token) (scanned text : List Char) : Prop :=
  ∀ left c right, text = left ++ c :: right →
    isLayout c = true ∨ ∃ token ∈ tokens, token.Holds (Text.byteLength (scanned ++ left)) c

theorem Fill.layout {tokens : List Token} {scanned rest : List Char} {blank : Char}
    (layout : isLayout blank = true) (fill : Fill tokens (scanned ++ [blank]) rest) :
    Fill tokens scanned (blank :: rest) := by
  rintro (_ | ⟨head, left⟩) c right split
  · cases split
    exact .inl layout
  · cases split
    rw [List.append_cons]
    exact fill left c right rfl

theorem Fill.lexeme {tokens : List Token} {scanned lexeme after : List Char} {token : Token}
    (span : token.span =
      ⟨Text.byteLength scanned, Text.byteLength scanned + Text.byteLength lexeme⟩)
    (fill : Fill tokens (scanned ++ lexeme) after) :
    Fill (token :: tokens) scanned (lexeme ++ after) := by
  have behind : ∀ further c right, after = further ++ c :: right →
      isLayout c = true ∨ ∃ other ∈ token :: tokens,
        other.Holds (Text.byteLength (scanned ++ (lexeme ++ further))) c := by
    intro further c right split
    rw [← List.append_assoc]
    exact (fill further c right split).imp_right
      fun ⟨other, member, holds⟩ => ⟨other, List.mem_cons_of_mem _ member, holds⟩
  intro left c right split
  rcases List.append_eq_append_iff.1 split with
    ⟨further, rfl, isAfter⟩ | ⟨inside, isLexeme, isRight⟩
  · exact behind further c right isAfter
  · cases inside with
    | nil =>
        rw [List.append_nil] at isLexeme
        rw [← isLexeme, ← List.append_nil lexeme]
        exact behind [] c right isRight.symm
    | cons head inside =>
        cases isRight
        refine .inr ⟨token, List.mem_cons_self, ?_⟩
        unfold Holds
        rw [span, isLexeme]
        simp only [Text.byteLength_append, Text.byteLength_cons]
        omega

/-- The tokens of a text stand in it, and it has only blanks elsewhere.  The induction is over the
text behind the characters scanned already. -/
theorem Scans.exact {offset : Nat} {text : List Char} {tokens : List Token}
    (scans : Scans offset text tokens) (scanned : List Char)
    (behind : offset = Text.byteLength scanned) :
    (∀ c ∈ text, isAdmissible c = true) ∧
      ∃ before, tokens = before ++ [endOfInput (offset + Text.byteLength text)] ∧
        (∀ token ∈ before, token.StandsIn (scanned ++ text)) ∧ Fill before scanned text := by
  induction scans generalizing scanned with
  | mark offset =>
      refine ⟨nofun, [], rfl, nofun, fun left c right split => ?_⟩
      exact absurd split.symm (by simp)
  | @layout offset blank rest tokens layout _ inductionHypothesis =>
      obtain ⟨admissible, before, split, stand, fill⟩ :=
        inductionHypothesis (scanned ++ [blank]) (by simp [behind])
      refine ⟨List.forall_mem_cons.2 ⟨isAdmissible_of_isLayout layout, admissible⟩, before, ?_, ?_,
        fill.layout layout⟩
      · rw [split, Text.byteLength_cons, Nat.add_assoc]
      · rw [List.append_cons]
        exact stand
  | @lexeme offset first tail after kind tokens notLayout found _ inductionHypothesis =>
      have isMatch := (leads_of_lexeme? found).suits.isMatch
      obtain ⟨admissible, before, split, stand, fill⟩ :=
        inductionHypothesis (scanned ++ first :: tail) (by simp [behind])
      subst behind
      rw [← List.cons_append]
      refine ⟨List.forall_mem_append.2 ⟨isAdmissible_of_matches isMatch, admissible⟩,
        ⟨kind, String.ofList (first :: tail), _, _⟩ :: before, ?_, ?_, fill.lexeme rfl⟩
      · rw [split, Text.byteLength_append, Nat.add_assoc]
        rfl
      · rw [← List.append_assoc]
        refine List.forall_mem_cons.2 ⟨⟨scanned, after, ?_, standsBetween_of_lexeme found⟩, stand⟩
        rw [String.toList_ofList, List.append_assoc]

/-- A scan that fails has met the first character that is not admissible. -/
theorem exists_of_unrecognized {offset : Nat} {text : List Char} {fault : Unrecognized}
    (fails : scanFrom offset text = .error fault) :
    ∃ left c right, text = left ++ c :: right ∧ fault.cause = .character c ∧
      isAdmissible c = false ∧ (∀ other ∈ left, isAdmissible other = true) ∧
      fault.span =
        ⟨offset + Text.byteLength left, offset + Text.byteLength left + c.utf8Size⟩ := by
  induction offset, text using scanFrom.induct with
  | case1 offset =>
      rw [scanFrom] at fails
      cases fails
  | case2 offset first rest layout inductionHypothesis =>
      rw [scanFrom, if_pos layout] at fails
      obtain ⟨left, c, right, split, cause, inadmissible, admissible, span⟩ :=
        inductionHypothesis fails
      refine ⟨first :: left, c, right, congrArg (first :: ·) split, cause, inadmissible,
        List.forall_mem_cons.2 ⟨isAdmissible_of_isLayout layout, admissible⟩, ?_⟩
      rw [span, Text.byteLength_cons, Nat.add_assoc]
  | case3 offset first rest notLayout noLexeme =>
      rw [scanFrom, if_neg notLayout, noLexeme] at fails
      cases fails
      refine ⟨[], first, rest, rfl, rfl, Bool.eq_false_iff.2 fun admissible => ?_,
        List.forall_mem_nil _, rfl⟩
      exact lexeme?_ne_none admissible (Bool.eq_false_iff.2 notLayout) rest noLexeme
  | case4 offset first rest notLayout kind tail lexeme stop =>
      rename_i inductionHypothesis
      obtain ⟨after, rfl, _⟩ := lexeme?_append lexeme
      rw [scanFrom_lexeme offset (Bool.eq_false_iff.2 notLayout) lexeme] at fails
      rw [List.drop_left] at inductionHypothesis
      cases later : scanFrom (offset + Text.byteLength (first :: tail)) after with
      | ok others =>
          rw [later] at fails
          cases fails
      | error other =>
          rw [later] at fails
          cases fails
          obtain ⟨left, c, right, split, cause, inadmissible, admissible, span⟩ :=
            inductionHypothesis later
          have isMatch := (leads_of_lexeme? lexeme).suits.isMatch
          refine ⟨first :: tail ++ left, c, right, ?_, cause, inadmissible, ?_, ?_⟩
          · rw [split, List.append_assoc, List.cons_append]
          · exact List.forall_mem_append.2 ⟨isAdmissible_of_matches isMatch, admissible⟩
          · rw [span, Text.byteLength_append, Nat.add_assoc]

/-! ## Scans -/

/-- A text has tokens if all its characters are admissible.  The tokens stand in the text one behind
the other, each as long as it can be and of the kind of its text, with nothing but blanks outside
them and the end-of-input mark behind them.  Otherwise the scan reports the first character that is
not admissible and its bytes, and only characters of the basic set stand before it. -/
theorem scan_exact (source : String) :
    ((∃ tokens, scan source = .ok tokens) ↔ ∀ c ∈ source.toList, isAdmissible c = true) ∧
      match scan source with
      | .ok tokens =>
          ∃ before,
            tokens = before ++
              [⟨.endOfInput, "", ⟨source.utf8ByteSize, source.utf8ByteSize⟩⟩] ∧
            (before.Pairwise fun left right => left.span.stop ≤ right.span.start) ∧
            (∀ token ∈ before, token.StandsIn source.toList) ∧
            ∀ left c right, source.toList = left ++ c :: right →
              isLayout c = true ∨ ∃ token ∈ before, token.Holds (Text.byteLength left) c
      | .error fault =>
          ∃ left c right, source.toList = left ++ c :: right ∧ fault.cause = .character c ∧
            isAdmissible c = false ∧
            (∀ other ∈ left, isAdmissible other = true ∧ other.toNat < 128) ∧
            fault.span = ⟨Text.byteLength left, Text.byteLength left + c.utf8Size⟩ := by
  cases found : scan source with
  | ok tokens =>
      have scans := scans_of_scanFrom found
      obtain ⟨admissible, before, split, stand, fill⟩ := scans.exact [] rfl
      refine ⟨⟨fun _ => admissible, fun _ => ⟨tokens, rfl⟩⟩, before, ?_, ?_, stand, fill⟩
      · rw [split, Text.byteLength_toList, Nat.zero_add]
        rfl
      · have behind := scans.inOrder.2.behind
        rw [split] at behind
        exact (List.pairwise_append.1 behind).1
  | error fault =>
      obtain ⟨left, c, right, split, cause, inadmissible, admissible, span⟩ :=
        exists_of_unrecognized found
      refine ⟨⟨nofun, fun all => ?_⟩, left, c, right, split, cause, inadmissible, ?_, ?_⟩
      · have member : c ∈ source.toList := by
          rw [split]
          exact List.mem_append_right _ List.mem_cons_self
        rw [all _ member] at inadmissible
        cases inadmissible
      · exact fun other member =>
          ⟨admissible other member, lt_of_isAdmissible (admissible other member)⟩
      · rw [span, Nat.zero_add]

end NanoScript.Token
