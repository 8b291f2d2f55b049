import Mathlib.Data.List.Basic
import NanoScript.Bracket.Balance

/-!
Contract: the brackets of a text as a word of their own.

Owns:
- edges, the brackets apart from the characters that write them, and the edges of a text;
- balanced words, in which every edge has its partner;
- the shapes that a word leaves open, if no closing edge in it is without a partner;
- the theorem that the verdict on a text is read off the shapes that its edges leave open.

Does not own: the offset of the closing bracket that a verdict names.
-/

namespace NanoScript.Bracket

/-- One side of a pair of brackets. -/
inductive Edge where
  | opening (shape : Shape)
  | closing (shape : Shape)
deriving DecidableEq

/-- The edge that a character is. -/
def edge? (c : Char) : Option Edge :=
  match opened? c with
  | some shape => some (.opening shape)
  | none => (closed? c).map .closing

theorem edge?_of_opened {c : Char} {shape : Shape} (opens : opened? c = some shape) :
    edge? c = some (.opening shape) := by
  rw [edge?, opens]

theorem edge?_of_closed {c : Char} {shape : Shape} (closes : closed? c = some shape) :
    edge? c = some (.closing shape) := by
  cases opens : opened? c with
  | none => rw [edge?, opens, closes]; rfl
  | some other =>
      rw [closed?_eq_none_of_opened? opens] at closes
      cases closes

theorem edge?_of_neither {c : Char} (noOpening : opened? c = none) (noClosing : closed? c = none) :
    edge? c = none := by
  rw [edge?, noOpening, noClosing]
  rfl

theorem opened?_of_edge? {c : Char} {shape : Shape} (isEdge : edge? c = some (.opening shape)) :
    opened? c = some shape := by
  cases opens : opened? c with
  | some other =>
      rw [edge?_of_opened opens] at isEdge
      cases isEdge
      rfl
  | none =>
      rw [edge?, opens] at isEdge
      cases closes : closed? c <;> rw [closes] at isEdge <;> cases isEdge

theorem closed?_of_edge? {c : Char} {shape : Shape} (isEdge : edge? c = some (.closing shape)) :
    closed? c = some shape := by
  cases opens : opened? c with
  | some other =>
      rw [edge?_of_opened opens] at isEdge
      cases isEdge
  | none =>
      rw [edge?, opens] at isEdge
      cases closes : closed? c <;> rw [closes] at isEdge <;> cases isEdge
      rfl

/-- The edges of a text in order. -/
def edges (text : List Char) : List Edge :=
  text.flatMap fun c => (edge? c).toList

@[simp] theorem edges_append (left right : List Char) :
    edges (left ++ right) = edges left ++ edges right :=
  List.flatMap_append

theorem edges_cons (c : Char) (rest : List Char) :
    edges (c :: rest) = (edge? c).toList ++ edges rest :=
  List.flatMap_cons

/-- A text without brackets has no edges. -/
theorem edges_eq_nil {text : List Char} (plain : ∀ c ∈ text, edge? c = none) : edges text = [] := by
  refine List.flatMap_eq_nil_iff.2 fun c member => ?_
  rw [plain c member]
  rfl

/-- A split of the edges of a text comes from a split of the text. -/
theorem exists_split_of_edges {text : List Char} {left right : List Edge} {edge : Edge}
    (split : edges text = left ++ edge :: right) :
    ∃ before c after, text = before ++ c :: after ∧ edges before = left ∧
      edge? c = some edge ∧ edges after = right := by
  have asFilter (characters : List Char) : edges characters = characters.filterMap edge? :=
    (List.filterMap_eq_flatMap_toList edge? characters).symm
  rw [asFilter] at split
  obtain ⟨front, back, rfl, isLeft, isBack⟩ := List.filterMap_eq_append_iff.1 split
  obtain ⟨plain, c, after, rfl, isPlain, isEdge, isRight⟩ := List.filterMap_eq_cons_iff.1 isBack
  refine ⟨front ++ plain, c, after, ?_, ?_, isEdge, ?_⟩
  · rw [List.append_assoc]
  · rw [edges_append, edges_eq_nil isPlain, List.append_nil, asFilter, isLeft]
  · rw [asFilter, isRight]

/-! ## Balanced words -/

/-- Words in which every opening edge is closed by one of its own shape, what stands between them
being balanced too. -/
inductive Balanced : List Edge → Prop
  | nil : Balanced []
  | enclosed (shape : Shape) {inner rest : List Edge} (isInner : Balanced inner)
      (isRest : Balanced rest) : Balanced (.opening shape :: (inner ++ .closing shape :: rest))

theorem Balanced.append {left right : List Edge} (isLeft : Balanced left)
    (isRight : Balanced right) : Balanced (left ++ right) := by
  induction isLeft with
  | nil => exact isRight
  | enclosed shape isInner _ _ restHypothesis =>
      rw [List.cons_append, List.append_assoc, List.cons_append]
      exact .enclosed shape isInner restHypothesis

/-! ## Shapes left open -/

/-- The shapes that are open behind a word, the innermost first, if those given are open before it.
There are none if a closing edge of the word does not close the innermost open shape. -/
def leftOpen (openShapes : List Shape) : List Edge → Option (List Shape)
  | [] => some openShapes
  | .opening shape :: rest => leftOpen (shape :: openShapes) rest
  | .closing shape :: rest =>
      match openShapes with
      | [] => none
      | innermost :: others => if innermost = shape then leftOpen others rest else none

theorem leftOpen_append (openShapes : List Shape) (left right : List Edge) :
    leftOpen openShapes (left ++ right) =
      (leftOpen openShapes left).bind fun behind => leftOpen behind right := by
  induction left generalizing openShapes with
  | nil => rfl
  | cons edge rest inductionHypothesis =>
      cases edge with
      | opening shape => exact inductionHypothesis (shape :: openShapes)
      | closing shape =>
          cases openShapes with
          | nil => rfl
          | cons innermost others =>
              simp only [List.cons_append, leftOpen]
              by_cases same : innermost = shape
              · rw [if_pos same, if_pos same]
                exact inductionHypothesis others
              · rw [if_neg same, if_neg same]
                rfl

/-- A balanced word leaves open what was open before it. -/
theorem Balanced.leftOpen_append {word : List Edge} (balanced : Balanced word)
    (openShapes : List Shape) (later : List Edge) :
    leftOpen openShapes (word ++ later) = leftOpen openShapes later := by
  induction balanced generalizing openShapes later with
  | nil => rfl
  | @enclosed shape inner rest _ _ innerHypothesis restHypothesis =>
      rw [List.cons_append, List.append_assoc, List.cons_append, leftOpen, innerHypothesis,
        leftOpen]
      show (if shape = shape then leftOpen openShapes (rest ++ later) else none) = _
      rw [if_pos rfl]
      exact restHypothesis openShapes later

theorem Balanced.leftOpen_eq {word : List Edge} (balanced : Balanced word)
    (openShapes : List Shape) : leftOpen openShapes word = some openShapes := by
  have whole := balanced.leftOpen_append openShapes []
  rw [List.append_nil] at whole
  exact whole

/-- Every beginning of a balanced word leaves some shapes open, be it none at all. -/
theorem Balanced.exists_leftOpen_of_prefix {before after : List Edge}
    (balanced : Balanced (before ++ after)) :
    ∃ behind, leftOpen [] before = some behind := by
  have whole := balanced.leftOpen_eq []
  rw [Bracket.leftOpen_append] at whole
  obtain ⟨behind, isOpen, _⟩ := Option.bind_eq_some_iff.1 whole
  exact ⟨behind, isOpen⟩

/-! ## Verdicts -/

/-- What a verdict says about the shapes left open. -/
def Verdict.Tells : Verdict → Option (List Shape) → Prop
  | .balanced, behind => behind = some []
  | .unfinished, behind => ∃ innermost others, behind = some (innermost :: others)
  | .unmatched _ _, behind => behind = none

/-- The verdict on a text tells which shapes its edges leave open. -/
theorem judgeFrom_tells (openShapes : List Shape) (offset : Nat) (text : List Char) :
    (judgeFrom openShapes offset text).Tells (leftOpen openShapes (edges text)) := by
  induction text generalizing openShapes offset with
  | nil =>
      cases openShapes with
      | nil => exact rfl
      | cons innermost others => exact ⟨innermost, others, rfl⟩
  | cons c rest inductionHypothesis =>
      unfold judgeFrom
      cases opens : opened? c with
      | some shape =>
          have opening : edges (c :: rest) = .opening shape :: edges rest := by
            rw [edges_cons, edge?, opens]
            rfl
          rw [opening]
          exact inductionHypothesis (shape :: openShapes) _
      | none =>
          cases closes : closed? c with
          | none =>
              rw [edges_cons, edge?, opens, closes]
              exact inductionHypothesis openShapes _
          | some shape =>
              have closing : edges (c :: rest) = .closing shape :: edges rest := by
                rw [edges_cons, edge?, opens, closes]
                rfl
              rw [closing]
              cases openShapes with
              | nil => exact rfl
              | cons innermost others =>
                  simp only [leftOpen]
                  by_cases same : innermost = shape
                  · rw [if_pos same, if_pos same]
                    exact inductionHypothesis others _
                  · rw [if_neg same, if_neg same]
                    exact rfl

theorem judge_tells (text : String) :
    (judge text).Tells (leftOpen [] (edges text.toList)) :=
  judgeFrom_tells [] 0 text.toList

/-- A text is found balanced just if its edges leave nothing open. -/
theorem judge_eq_balanced_iff (text : String) :
    judge text = .balanced ↔ leftOpen [] (edges text.toList) = some [] := by
  have tells := judge_tells text
  revert tells
  cases judge text with
  | balanced => exact fun tells => ⟨fun _ => tells, fun _ => rfl⟩
  | unfinished =>
      rintro ⟨innermost, others, isOpen⟩
      rw [isOpen]
      exact ⟨nofun, nofun⟩
  | unmatched closing offset =>
      intro tells
      rw [show leftOpen [] (edges text.toList) = none from tells]
      exact ⟨nofun, nofun⟩

/-- No bracket of a text is without a partner before it if its edges leave some shapes open. -/
theorem judge_of_leftOpen {text : String} {behind : List Shape}
    (isOpen : leftOpen [] (edges text.toList) = some behind) :
    judge text = .balanced ∨ judge text = .unfinished := by
  have tells := judge_tells text
  rw [isOpen] at tells
  revert tells
  cases judge text with
  | balanced => exact fun _ => .inl rfl
  | unfinished => exact fun _ => .inr rfl
  | unmatched closing offset => exact nofun

end NanoScript.Bracket
