import NanoScript.Proofs.Number.Text
import NanoScript.Token.Scan

/-!
Contract: which words a text spells, wherever it stands in a source.

Owns:
- words, the tokens without their places;
- the texts behind which a word or a numeral does not go on;
- the words that a text spells, for marks, blanks, words, numerals and texts that stand side by
  side;
- the texts of names and numerals that a scan can find.
-/

namespace NanoScript

/-- A token without its place. -/
structure Word where
  kind : Token.Kind
  text : String
deriving DecidableEq

namespace Token

/-- A token with its place forgotten. -/
def word (token : Token) : Word :=
  ⟨token.kind, token.text⟩

/-- The words of a list of tokens. -/
def words (tokens : List Token) : List Word :=
  tokens.map word

@[simp] theorem words_nil : words [] = [] :=
  rfl

@[simp] theorem words_cons (token : Token) (rest : List Token) :
    words (token :: rest) = token.word :: words rest :=
  rfl

@[simp] theorem words_append (left right : List Token) :
    words (left ++ right) = words left ++ words right :=
  List.map_append

/-! ## Characters -/

theorem isDigit_eq (c : Char) : isDigit c = c.isDigit :=
  rfl

theorem isLetter_of_isDigit {c : Char} (digit : c.isDigit = true) : isLetter c = false := by
  rw [← isDigit_eq] at digit
  unfold isDigit at digit
  unfold isLetter
  simp only [Bool.and_eq_true, decide_eq_true_eq, Char.le_def, UInt32.le_iff_toNat_le] at digit
  simp only [Bool.or_eq_false_iff, Bool.and_eq_false_iff, decide_eq_false_iff_not, Char.le_def,
    UInt32.le_iff_toNat_le]
  have upper : '9'.val.toNat < 'A'.val.toNat := by decide
  have lower : '9'.val.toNat < 'a'.val.toNat := by decide
  omega

theorem isLayout_of_isLetter {c : Char} (letter : isLetter c = true) : isLayout c = false := by
  cases layout : isLayout c with
  | false => rfl
  | true =>
      simp only [isLayout, Bool.or_eq_true, decide_eq_true_eq] at layout
      rcases layout with ((blank | tab) | newline) | carriageReturn <;> subst c <;> cases letter

theorem isLayout_of_isDigit {c : Char} (digit : c.isDigit = true) : isLayout c = false := by
  cases layout : isLayout c with
  | false => rfl
  | true =>
      simp only [isLayout, Bool.or_eq_true, decide_eq_true_eq] at layout
      rcases layout with ((blank | tab) | newline) | carriageReturn <;> subst c <;> cases digit

/-! ## Where words and numerals end -/

/-- Neither a word nor a numeral goes on with this text. -/
def Breaks : List Char → Prop
  | [] => True
  | c :: rest =>
      isLetter c = false ∧ c.isDigit = false ∧ (c = '.' → ∀ next ∈ rest.head?, next.isDigit = false)

/-- Marks and blanks other than the dot. -/
def isDivider (c : Char) : Bool :=
  !isLetter c && !c.isDigit && c ≠ '.'

theorem breaks_cons {c : Char} (divides : isDivider c = true) (rest : List Char) :
    Breaks (c :: rest) := by
  unfold isDivider at divides
  simp only [Bool.and_eq_true, Bool.not_eq_true', decide_eq_true_eq] at divides
  exact ⟨divides.1.1, divides.1.2, fun same => absurd same divides.2⟩

theorem Breaks.takeWhile_isLetter {rest : List Char} (breaks : Breaks rest) :
    rest.takeWhile isLetter = [] := by
  cases rest with
  | nil => rfl
  | cons c rest => exact List.takeWhile_cons_of_neg (by rw [breaks.1]; decide)

theorem Breaks.takeWhile_isDigit {rest : List Char} (breaks : Breaks rest) :
    rest.takeWhile isDigit = [] := by
  cases rest with
  | nil => rfl
  | cons c rest => exact List.takeWhile_cons_of_neg (by rw [isDigit_eq, breaks.2.1]; decide)

/-- A numeral with its fraction mark, if it has one, ends here. -/
theorem Breaks.numeralTail_append {figures rest : List Char}
    (areDigits : ∀ c ∈ figures, c.isDigit = true) (breaks : Breaks rest) :
    numeralTail (figures ++ rest) = figures := by
  have taken : (figures ++ rest).takeWhile isDigit = figures := by
    rw [List.takeWhile_append_of_pos (p := isDigit) areDigits, breaks.takeWhile_isDigit,
      List.append_nil]
  have dropped : (figures ++ rest).dropWhile isDigit = rest.dropWhile isDigit :=
    List.dropWhile_append_of_pos areDigits
  unfold numeralTail
  dsimp only
  rw [taken, dropped]
  cases rest with
  | nil => rfl
  | cons c rest =>
      rw [List.dropWhile_cons_of_neg (by rw [isDigit_eq, breaks.2.1]; decide)]
      split
      · next same =>
          cases same
          rw [isDigit_eq, breaks.2.2 rfl _ rfl]
          rfl
      · rfl

theorem Breaks.numeralTail_fraction {figures places rest : List Char}
    (areDigits : ∀ c ∈ figures, c.isDigit = true) (placesNonempty : places ≠ [])
    (placesAreDigits : ∀ c ∈ places, c.isDigit = true) (breaks : Breaks rest) :
    numeralTail (figures ++ '.' :: (places ++ rest)) = figures ++ '.' :: places := by
  obtain ⟨first, later, rfl⟩ := List.exists_cons_of_ne_nil placesNonempty
  have notDigit : ¬ isDigit '.' = true := by decide
  have taken : (figures ++ '.' :: (first :: later ++ rest)).takeWhile isDigit = figures := by
    rw [List.takeWhile_append_of_pos (p := isDigit) areDigits, List.takeWhile_cons_of_neg notDigit,
      List.append_nil]
  have dropped : (figures ++ '.' :: (first :: later ++ rest)).dropWhile isDigit =
      '.' :: first :: (later ++ rest) := by
    rw [List.dropWhile_append_of_pos (p := isDigit) areDigits, List.dropWhile_cons_of_neg notDigit]
    rfl
  have laterTaken : (later ++ rest).takeWhile isDigit = later := by
    have laterDigits : ∀ c ∈ later, isDigit c = true :=
      fun c member => placesAreDigits c (List.mem_cons_of_mem first member)
    rw [List.takeWhile_append_of_pos laterDigits, breaks.takeWhile_isDigit, List.append_nil]
  unfold numeralTail
  dsimp only
  have firstDigit : isDigit first = true := placesAreDigits first List.mem_cons_self
  rw [List.cons_append] at taken dropped
  rw [List.cons_append, taken, dropped]
  refine (if_pos firstDigit).trans ?_
  rw [laterTaken]

/-! ## Steps of a scan -/

theorem scanFrom_layout (offset : Nat) {c : Char} (layout : isLayout c = true)
    (rest : List Char) : scanFrom offset (c :: rest) = scanFrom (offset + c.utf8Size) rest := by
  rw [scanFrom, if_pos layout]

theorem scanFrom_lexeme (offset : Nat) {first : Char} {tail rest : List Char} {kind : Kind}
    (notLayout : isLayout first = false)
    (lexeme : lexeme? first (tail ++ rest) = some (kind, tail)) :
    scanFrom offset (first :: (tail ++ rest)) =
      (scanFrom (offset + Text.byteLength (first :: tail)) rest).map fun tokens =>
        ⟨kind, String.ofList (first :: tail), offset,
          offset + Text.byteLength (first :: tail)⟩ :: tokens := by
  have isSplit : ¬ isLayout first = true := by
    rw [notLayout]
    decide
  rw [scanFrom, if_neg isSplit, lexeme]
  dsimp only
  rw [List.drop_left]

end Token

/-! ## Texts that spell words -/

open Token

/-- Wherever a text stands before something that it does not go on with, it is cut into these
words. -/
def Spells (text : List Char) (words : List Word) : Prop :=
  ∀ (offset : Nat) (rest : List Char), Breaks rest →
    ∃ tokens, Token.words tokens = words ∧
      scanFrom offset (text ++ rest) =
        (scanFrom (offset + Text.byteLength text) rest).map (tokens ++ ·)

/-- No word goes on with a text, whatever stands behind it. -/
def Divides (text : List Char) : Prop :=
  ∀ rest, Breaks rest → Breaks (text ++ rest)

theorem Divides.nil : Divides [] :=
  fun _ breaks => breaks

theorem Divides.cons {c : Char} (divides : isDivider c = true) (text : List Char) :
    Divides (c :: text) :=
  fun _ _ => breaks_cons divides _

/-- A dot divides where a letter follows it. -/
theorem Divides.dot {c : Char} (letter : isLetter c = true) (text : List Char) :
    Divides ('.' :: c :: text) := by
  intro rest _
  refine ⟨by decide, by decide, ?_⟩
  intro _ next isNext
  cases isNext
  cases digit : c.isDigit with
  | false => rfl
  | true => rw [isLetter_of_isDigit digit] at letter; cases letter

namespace Spells

theorem nil : Spells [] [] := by
  intro offset rest _
  refine ⟨[], rfl, ?_⟩
  rw [List.nil_append, Text.byteLength_nil, Nat.add_zero]
  cases scanFrom offset rest <;> rfl

theorem append {left right : List Char} {leftWords rightWords : List Word}
    (first : Spells left leftWords) (second : Spells right rightWords) (divides : Divides right) :
    Spells (left ++ right) (leftWords ++ rightWords) := by
  intro offset rest breaks
  obtain ⟨leftTokens, leftSame, leftScan⟩ := first offset (right ++ rest) (divides rest breaks)
  obtain ⟨rightTokens, rightSame, rightScan⟩ :=
    second (offset + Text.byteLength left) rest breaks
  refine ⟨leftTokens ++ rightTokens, ?_, ?_⟩
  · rw [words_append, leftSame, rightSame]
  · rw [List.append_assoc, leftScan, rightScan, Text.byteLength_append, Nat.add_assoc]
    cases scanFrom (offset + (Text.byteLength left + Text.byteLength right)) rest with
    | error fault => rfl
    | ok tokens => exact congrArg Except.ok (List.append_assoc _ _ _).symm

theorem layout {c : Char} {text : List Char} {words : List Word} (isLayout : isLayout c = true)
    (spells : Spells text words) : Spells (c :: text) words := by
  intro offset rest breaks
  obtain ⟨tokens, same, scan⟩ := spells (offset + c.utf8Size) rest breaks
  refine ⟨tokens, same, ?_⟩
  rw [List.cons_append, scanFrom_layout offset isLayout, scan, Text.byteLength_cons,
    Nat.add_assoc]

/-- One token and the text behind it. -/
theorem lexeme {first : Char} {tail text : List Char} {kind : Token.Kind} {words : List Word}
    (notLayout : isLayout first = false)
    (found : ∀ rest, Breaks rest →
      lexeme? first (tail ++ (text ++ rest)) = some (kind, tail))
    (spells : Spells text words) :
    Spells (first :: (tail ++ text)) (⟨kind, String.ofList (first :: tail)⟩ :: words) := by
  intro offset rest breaks
  obtain ⟨tokens, same, scan⟩ :=
    spells (offset + Text.byteLength (first :: tail)) rest breaks
  refine ⟨⟨kind, String.ofList (first :: tail), offset,
    offset + Text.byteLength (first :: tail)⟩ :: tokens, congrArg (_ :: ·) same, ?_⟩
  rw [List.cons_append, List.append_assoc, scanFrom_lexeme offset notLayout (found rest breaks),
    scan, ← List.cons_append, Text.byteLength_append, ← Nat.add_assoc]
  cases scanFrom (offset + Text.byteLength (first :: tail) + Text.byteLength text) rest <;> rfl

/-- A mark is a token whatever stands behind it. -/
theorem mark {c : Char} {kind : Token.Kind} {text : List Char} {words : List Word}
    (isMark : Kind.ofMark? c = some kind)
    (plain : (!isLayout c && !isLetter c && !c.isDigit) = true) (spells : Spells text words) :
    Spells (c :: text) (⟨kind, String.singleton c⟩ :: words) := by
  simp only [Bool.and_eq_true, Bool.not_eq_true'] at plain
  obtain ⟨⟨notLayout, notLetter⟩, notDigit⟩ := plain
  have found (rest : List Char) : lexeme? c rest = some (kind, []) := by
    unfold lexeme?
    rw [notLetter, isDigit_eq, notDigit, isMark]
    rfl
  exact lexeme notLayout (fun rest _ => found ([] ++ (text ++ rest))) spells

/-- Letters make one word. -/
theorem letters (text : String) (nonempty : text.toList ≠ [])
    (areLetters : text.toList.all isLetter = true) :
    Spells text.toList [⟨Kind.ofWord text, text⟩] := by
  obtain ⟨first, tail, split⟩ := List.exists_cons_of_ne_nil nonempty
  rw [split, List.all_cons, Bool.and_eq_true, List.all_eq_true] at areLetters
  obtain ⟨firstLetter, tailLetters⟩ := areLetters
  have whole : String.ofList (first :: tail) = text := by rw [← split, String.ofList_toList]
  have spelled : Spells (first :: (tail ++ []))
      [⟨Kind.ofWord text, String.ofList (first :: tail)⟩] := by
    apply lexeme (isLayout_of_isLetter firstLetter) _ nil
    intro rest breaks
    unfold lexeme?
    rw [if_pos firstLetter, List.nil_append]
    dsimp only
    rw [List.takeWhile_append_of_pos tailLetters, breaks.takeWhile_isLetter, List.append_nil, whole]
  rw [List.append_nil, whole] at spelled
  rw [split]
  exact spelled

/-- A plain numeral is one token. -/
theorem numeral {figures : List Char} (isPlain : Decimal.IsPlain figures) :
    Spells figures [⟨.number, String.ofList figures⟩] := by
  obtain ⟨first, tail, rfl, digit⟩ := isPlain.exists_cons
  have taken (rest : List Char) (breaks : Breaks rest) : numeralTail (tail ++ rest) = tail := by
    generalize text_eq : first :: tail = text at isPlain
    cases isPlain with
    | whole nonempty areDigits =>
        subst text
        exact breaks.numeralTail_append fun c member =>
          areDigits c (List.mem_cons_of_mem first member)
    | @fraction figures places nonempty placesNonempty areDigits placesAreDigits =>
        obtain ⟨head, whole, rfl⟩ := List.exists_cons_of_ne_nil nonempty
        cases text_eq
        have reaches := breaks.numeralTail_fraction
          (fun c member => areDigits c (List.mem_cons_of_mem first member)) placesNonempty
          placesAreDigits
        rw [← List.cons_append, ← List.append_assoc] at reaches
        exact reaches
  have spelled : Spells (first :: (tail ++ [])) [⟨.number, String.ofList (first :: tail)⟩] := by
    apply lexeme (isLayout_of_isDigit digit) _ nil
    intro rest breaks
    unfold lexeme?
    rw [isLetter_of_isDigit digit, isDigit_eq, digit, List.nil_append, taken rest breaks]
    rfl
  rw [List.append_nil] at spelled
  exact spelled

/-- The scan of a text that spells words finds these words. -/
theorem scan {text : String} {words : List Word} (spells : Spells text.toList words) :
    ∃ tokens mark, Token.words tokens = words ∧ mark.kind = .endOfInput ∧
      Token.scan text = .ok (tokens ++ [mark]) := by
  obtain ⟨tokens, same, scan⟩ := spells 0 [] trivial
  refine ⟨tokens, Token.endOfInput (0 + Text.byteLength text.toList), same, rfl, ?_⟩
  unfold Token.scan
  rw [List.append_nil] at scan
  rw [scan, scanFrom]
  rfl

end Spells

end NanoScript
