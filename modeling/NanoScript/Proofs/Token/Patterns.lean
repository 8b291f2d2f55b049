import NanoScript.Proofs.Token.Extent
import NanoScript.Proofs.Token.Lexical

/-!
Contract: the patterns of tokens, of which a lexeme is always the longest match.

Owns:
- the patterns: keywords, marks and operators, runs of letters, and numerals;
- the token that leads a text: no pattern has a longer match there, and a pattern of its own goes
  before the run of letters;
- the theorem that lexemes are the tokens that lead, and what follows for the characters behind
  them.
-/

namespace NanoScript.Token

/-! ## Patterns -/

/-- The texts with a kind of their own: keywords, marks and operators. -/
def Kind.fixedTexts : List (String × Kind) :=
  [("let", .letKeyword), ("const", .constKeyword), ("fn", .fnKeyword), ("=", .equals),
    ("(", .openParen), (")", .closeParen), ("\x7b", .openBrace), ("\x7d", .closeBrace),
    ("[", .openBracket), ("]", .closeBracket), (":", .colon), (";", .semicolon), (",", .comma),
    (".", .dot), ("+", .binaryOperator), ("-", .binaryOperator), ("*", .binaryOperator),
    ("/", .binaryOperator), ("%", .binaryOperator)]

/-- The texts of the tokens of each kind. -/
inductive Kind.Matches : Kind → List Char → Prop
  | fixed {kind : Kind} {text : List Char}
      (listed : (String.ofList text, kind) ∈ Kind.fixedTexts) : Matches kind text
  | word {letters : List Char} (nonempty : letters ≠ [])
      (areLetters : ∀ c ∈ letters, isLetter c = true) : Matches .identifier letters
  | numeral {figures : List Char} (isPlain : Decimal.IsPlain figures) : Matches .number figures

/-- The kind of a text: its pattern matches, and it is that of runs of letters only if no other
one does. -/
structure Kind.Suits (kind : Kind) (text : List Char) : Prop where
  isMatch : kind.Matches text
  first : ∀ {other : Kind}, other.Matches text → other = kind ∨ other = .identifier

/-- A text has one kind. -/
theorem Kind.Suits.eq {kind other : Kind} {text : List Char} (suits : kind.Suits text)
    (otherSuits : other.Suits text) : other = kind := by
  rcases suits.first otherSuits.isMatch with same | isWord
  · exact same
  · rcases otherSuits.first suits.isMatch with same | isWordToo
    · exact same.symm
    · exact isWord.trans isWordToo.symm

/-- A token leads a text: it has the kind of its text, and nothing longer at the front of the text
is a token. -/
structure Kind.Leads (kind : Kind) (text after : List Char) : Prop where
  suits : kind.Suits text
  longest : ∀ {other : Kind} {longer : List Char}, other.Matches longer → longer <+: text ++ after →
    longer.length ≤ text.length

/-! ## Single characters -/

theorem isLetter_of_ofMark? {c : Char} {kind : Kind} (isMark : Kind.ofMark? c = some kind) :
    isLetter c = false ∧ isDigit c = false := by
  unfold Kind.ofMark? at isMark
  split at isMark
  all_goals first
    | cases isMark
      done
    | exact ⟨by decide, by decide⟩

theorem Kind.listed_of_ofMark? {c : Char} {kind : Kind} (isMark : Kind.ofMark? c = some kind) :
    (String.ofList [c], kind) ∈ Kind.fixedTexts := by
  unfold Kind.ofMark? at isMark
  split at isMark
  all_goals
    cases isMark
    try decide

/-- A text with a kind of its own is a mark or a keyword. -/
theorem Kind.cases_of_listed {kind : Kind} {text : List Char}
    (listed : (String.ofList text, kind) ∈ Kind.fixedTexts) :
    (∃ c, text = [c] ∧ Kind.ofMark? c = some kind) ∨
      text ≠ [] ∧ (∀ c ∈ text, isLetter c = true) ∧ kind = Kind.ofWord (String.ofList text) := by
  have all : ∀ entry ∈ Kind.fixedTexts,
      (entry.1.toList.map Kind.ofMark? = [some entry.2]) ∨
        entry.1.toList ≠ [] ∧ entry.1.toList.all isLetter = true ∧
          entry.2 = Kind.ofWord entry.1 := by decide
  rcases all _ listed with isMark | isKeyword
  · rw [String.toList_ofList] at isMark
    obtain ⟨c, rest, rfl, isMark, noRest⟩ := List.map_eq_cons_iff.1 isMark
    rw [List.map_eq_nil_iff.1 noRest]
    exact .inl ⟨c, rfl, isMark⟩
  · rw [String.toList_ofList, List.all_eq_true] at isKeyword
    exact .inr isKeyword

theorem Kind.matches_ofWord {letters : List Char} (nonempty : letters ≠ [])
    (areLetters : ∀ c ∈ letters, isLetter c = true) :
    (Kind.ofWord (String.ofList letters)).Matches letters := by
  unfold Kind.ofWord
  split
  · next same => exact .fixed (by rw [same]; decide)
  · next same => exact .fixed (by rw [same]; decide)
  · next same => exact .fixed (by rw [same]; decide)
  · exact .word nonempty areLetters

/-- The first character tells which patterns can match. -/
theorem Kind.Matches.cases_first {kind : Kind} {first : Char} {tail : List Char}
    (isMatch : kind.Matches (first :: tail)) :
    ((∀ c ∈ first :: tail, isLetter c = true) ∧
        (kind = Kind.ofWord (String.ofList (first :: tail)) ∨ kind = .identifier)) ∨
      (isDigit first = true ∧ Decimal.IsPlain (first :: tail) ∧ kind = .number) ∨
        (Kind.ofMark? first = some kind ∧ tail = []) := by
  cases isMatch with
  | fixed listed =>
      rcases Kind.cases_of_listed listed with ⟨c, same, isMark⟩ | ⟨_, areLetters, isKeyword⟩
      · cases same
        exact .inr (.inr ⟨isMark, rfl⟩)
      · exact .inl ⟨areLetters, .inl isKeyword⟩
  | word nonempty areLetters => exact .inl ⟨areLetters, .inr rfl⟩
  | numeral isPlain =>
      obtain ⟨c, rest, same, digit⟩ := isPlain.exists_cons
      cases same
      exact .inr (.inl ⟨digit, isPlain, rfl⟩)

theorem Kind.Matches.exists_cons {kind : Kind} {text : List Char} (isMatch : kind.Matches text) :
    ∃ first tail, text = first :: tail := by
  cases isMatch with
  | fixed listed =>
      rcases Kind.cases_of_listed listed with ⟨c, same, _⟩ | ⟨nonempty, _⟩
      · exact ⟨c, [], same⟩
      · exact List.exists_cons_of_ne_nil nonempty
  | word nonempty _ => exact List.exists_cons_of_ne_nil nonempty
  | numeral isPlain =>
      obtain ⟨first, rest, same, _⟩ := isPlain.exists_cons
      exact ⟨first, rest, same⟩

/-! ## Lexemes -/

/-- Whatever passes a test at the front of a text lies in what a search takes there. -/
theorem prefix_takeWhile {test : Char → Bool} {front text : List Char}
    (isPrefix : front <+: text) (pass : ∀ c ∈ front, test c = true) :
    front <+: text.takeWhile test := by
  obtain ⟨later, rfl⟩ := isPrefix
  rw [List.takeWhile_append_of_pos pass]
  exact List.prefix_append _ _

/-- The rest of a numeral at the front of a text lies in what continues the numeral. -/
theorem prefix_numeralTail {first : Char} {tail text : List Char}
    (isPlain : Decimal.IsPlain (first :: tail)) (isPrefix : tail <+: text) :
    tail <+: numeralTail text := by
  generalize whole_eq : first :: tail = whole at isPlain
  cases isPlain with
  | whole nonempty areDigits =>
      subst whole_eq
      have reaches : tail <+: text.takeWhile isDigit := prefix_takeWhile isPrefix
        fun c member => areDigits c (List.mem_cons_of_mem first member)
      refine reaches.trans ?_
      unfold numeralTail
      dsimp only
      split
      · split
        · exact List.prefix_append _ _
        · exact List.prefix_refl _
      · exact List.prefix_refl _
  | @fraction figures places nonempty placesNonempty areDigits placesAreDigits =>
      obtain ⟨head, figures, rfl⟩ := List.exists_cons_of_ne_nil nonempty
      obtain ⟨figure, places, rfl⟩ := List.exists_cons_of_ne_nil placesNonempty
      rw [List.cons_append] at whole_eq
      cases whole_eq
      obtain ⟨later, rfl⟩ := isPrefix
      have whole : ∀ c ∈ figures, isDigit c = true :=
        fun c member => areDigits c (List.mem_cons_of_mem _ member)
      have noDigit : ¬ isDigit '.' = true := by decide
      have isFigure : isDigit figure = true := placesAreDigits figure List.mem_cons_self
      unfold numeralTail
      rw [List.append_assoc, List.takeWhile_append_of_pos whole,
        List.dropWhile_append_of_pos whole, List.cons_append, List.cons_append,
        List.takeWhile_cons_of_neg noDigit, List.dropWhile_cons_of_neg noDigit]
      change _ <+: if isDigit figure = true then _ else _
      rw [if_pos isFigure, List.append_nil, List.takeWhile_append_of_pos]
      · exact ⟨later.takeWhile isDigit, List.append_assoc _ _ _⟩
      · exact fun c member => placesAreDigits c (List.mem_cons_of_mem _ member)

/-- A lexeme is the token that leads the text. -/
theorem leads_of_lexeme? {first : Char} {tail after : List Char} {kind : Kind}
    (found : lexeme? first (tail ++ after) = some (kind, tail)) :
    kind.Leads (first :: tail) after := by
  -- Whatever matches at the front starts with the same character, so it is of the same sort.
  have shorter {longer : List Char} {other : Kind}
      (within : ∀ more, longer = first :: more → other.Matches (first :: more) →
        more <+: tail ++ after → more <+: tail)
      (isMatch : other.Matches longer) (isPrefix : longer <+: (first :: tail) ++ after) :
      longer.length ≤ (first :: tail).length := by
    obtain ⟨head, more, rfl⟩ := isMatch.exists_cons
    obtain ⟨rfl, further⟩ := List.cons_prefix_cons.1 isPrefix
    exact Nat.succ_le_succ (within more rfl isMatch further).length_le
  unfold lexeme? at found
  split at found
  · next letter =>
      obtain ⟨rfl, isTail⟩ := Prod.mk.inj (Option.some.inj found)
      have areLetters : ∀ c ∈ first :: tail, isLetter c = true := by
        refine List.forall_mem_cons.2 ⟨letter, fun c member => ?_⟩
        rw [← isTail] at member
        exact forall_mem_takeWhile isLetter _ c member
      rw [isTail]
      refine ⟨⟨Kind.matches_ofWord (List.cons_ne_nil _ _) areLetters, fun isMatch => ?_⟩,
        shorter fun more _ isMatch isPrefix => ?_⟩
      · rcases isMatch.cases_first with ⟨_, same⟩ | ⟨digit, _⟩ | ⟨isMark, _⟩
        · exact same
        · rw [isLetter_of_isDigit digit] at letter
          cases letter
        · rw [(isLetter_of_ofMark? isMark).1] at letter
          cases letter
      · rcases isMatch.cases_first with ⟨areLetters, _⟩ | ⟨digit, _⟩ | ⟨_, rfl⟩
        · have reaches := prefix_takeWhile isPrefix
            fun c member => areLetters c (List.mem_cons_of_mem _ member)
          rw [isTail] at reaches
          exact reaches
        · rw [isLetter_of_isDigit digit] at letter
          cases letter
        · exact List.nil_prefix
  · next notLetter =>
      split at found
      · next digit =>
          obtain ⟨rfl, isTail⟩ := Prod.mk.inj (Option.some.inj found)
          have isPlain := isPlain_numeralTail digit (tail ++ after)
          rw [isTail] at isPlain
          refine ⟨⟨.numeral isPlain, fun isMatch => ?_⟩, shorter fun more _ isMatch isPrefix => ?_⟩
          · rcases isMatch.cases_first with ⟨areLetters, _⟩ | ⟨_, _, same⟩ | ⟨isMark, _⟩
            · exact absurd (areLetters first List.mem_cons_self) notLetter
            · exact .inl same
            · rw [(isLetter_of_ofMark? isMark).2] at digit
              cases digit
          · rcases isMatch.cases_first with ⟨areLetters, _⟩ | ⟨_, longerPlain, _⟩ | ⟨_, rfl⟩
            · exact absurd (areLetters first List.mem_cons_self) notLetter
            · have reaches := prefix_numeralTail longerPlain isPrefix
              rw [isTail] at reaches
              exact reaches
            · exact List.nil_prefix
      · next notDigit =>
          obtain ⟨mark, isMark, same⟩ := Option.map_eq_some_iff.1 found
          obtain ⟨rfl, rfl⟩ := Prod.mk.inj same
          refine ⟨⟨.fixed (Kind.listed_of_ofMark? isMark), fun isMatch => ?_⟩,
            shorter fun more _ isMatch _ => ?_⟩
          · rcases isMatch.cases_first with ⟨areLetters, _⟩ | ⟨digit, _⟩ | ⟨isSame, _⟩
            · exact absurd (areLetters first List.mem_cons_self) notLetter
            · exact absurd digit notDigit
            · exact .inl (Option.some.inj (isSame.symm.trans isMark))
          · rcases isMatch.cases_first with ⟨areLetters, _⟩ | ⟨digit, _⟩ | ⟨_, rfl⟩
            · exact absurd (areLetters first List.mem_cons_self) notLetter
            · exact absurd digit notDigit
            · exact List.nil_prefix

/-! ## Behind a token -/

/-- What leads a text matches no pattern any more with something behind it added. -/
theorem Kind.Leads.not_matches {kind other : Kind} {text after further : List Char}
    (leads : kind.Leads text after) (isPrefix : further <+: after) (nonempty : further ≠ []) :
    ¬ other.Matches (text ++ further) := by
  intro isMatch
  have bound := leads.longest isMatch ((List.prefix_append_right_inj text).2 isPrefix)
  rw [List.length_append] at bound
  have positive := List.length_pos_iff.2 nonempty
  omega

theorem Kind.Matches.isPlain {text : List Char} (isMatch : Kind.number.Matches text) :
    Decimal.IsPlain text := by
  cases isMatch with
  | fixed listed =>
      rcases Kind.cases_of_listed listed with ⟨c, _, isMark⟩ | ⟨_, _, isKeyword⟩
      · exact absurd rfl (ofMark?_ne isMark).2.2
      · exact absurd isKeyword.symm (ofWord_ne _).2
  | numeral isPlain => exact isPlain

/-- No letter stands behind a run of letters. -/
theorem Kind.Leads.not_isLetter {kind : Kind} {text after : List Char}
    (leads : kind.Leads text after) (areLetters : ∀ c ∈ text, isLetter c = true) {next : Char}
    (isNext : after.head? = some next) : isLetter next = false := by
  refine Bool.eq_false_iff.2 fun letter => ?_
  obtain ⟨later, rfl⟩ := List.head?_eq_some_iff.1 isNext
  have isPrefix : [next] <+: next :: later := ⟨later, rfl⟩
  refine leads.not_matches isPrefix (List.cons_ne_nil _ _) (Matches.word (by simp) ?_)
  exact List.forall_mem_append.2 ⟨areLetters, List.forall_mem_singleton.2 letter⟩

/-- No digit stands behind a numeral. -/
theorem Kind.Leads.not_isDigit {text after : List Char} (leads : Kind.number.Leads text after)
    {next : Char} (isNext : after.head? = some next) : isDigit next = false := by
  refine Bool.eq_false_iff.2 fun digit => ?_
  obtain ⟨later, rfl⟩ := List.head?_eq_some_iff.1 isNext
  have isPrefix : [next] <+: next :: later := ⟨later, rfl⟩
  refine leads.not_matches isPrefix (List.cons_ne_nil _ _) (Matches.numeral ?_)
  cases leads.suits.isMatch.isPlain with
  | whole nonempty areDigits =>
      refine .whole (by simp) ?_
      exact List.forall_mem_append.2 ⟨areDigits, List.forall_mem_singleton.2 digit⟩
  | fraction nonempty placesNonempty areDigits placesAreDigits =>
      rw [List.append_assoc, List.cons_append]
      refine .fraction nonempty (by simp) areDigits ?_
      exact List.forall_mem_append.2 ⟨placesAreDigits, List.forall_mem_singleton.2 digit⟩

/-- No fraction stands behind a numeral without one. -/
theorem Kind.Leads.not_fraction {kind : Kind} {text after : List Char}
    (leads : kind.Leads text after) (areDigits : ∀ c ∈ text, isDigit c = true) {figure : Char}
    {later : List Char} (isNext : after = '.' :: figure :: later) : isDigit figure = false := by
  refine Bool.eq_false_iff.2 fun digit => ?_
  obtain ⟨first, tail, rfl⟩ := leads.suits.isMatch.exists_cons
  have isPrefix : ['.', figure] <+: after := ⟨later, isNext.symm⟩
  refine leads.not_matches isPrefix (List.cons_ne_nil _ _) (Matches.numeral ?_)
  exact .fraction (List.cons_ne_nil _ _) (List.cons_ne_nil _ _) areDigits
    (List.forall_mem_singleton.2 digit)

end NanoScript.Token
