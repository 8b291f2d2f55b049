/-!
Contract: text measured and cut in bytes.

Owns:
- the length of a list of characters in UTF-8 bytes, which adds up over concatenation;
- the part of a text before a byte offset and the part from there on.
-/

namespace NanoScript.Text

/-- How many bytes a list of characters takes in UTF-8. -/
def byteLength : List Char → Nat
  | [] => 0
  | c :: rest => c.utf8Size + byteLength rest

@[simp] theorem byteLength_nil : byteLength [] = 0 :=
  rfl

@[simp] theorem byteLength_cons (c : Char) (rest : List Char) :
    byteLength (c :: rest) = c.utf8Size + byteLength rest :=
  rfl

@[simp] theorem byteLength_append (left right : List Char) :
    byteLength (left ++ right) = byteLength left + byteLength right := by
  induction left with
  | nil => simp
  | cons c rest inductionHypothesis => simp [inductionHypothesis, Nat.add_assoc]

/-- The bytes of a text are those of its characters. -/
theorem byteLength_toList (text : String) : byteLength text.toList = text.utf8ByteSize := by
  have ofCharacters (characters : List Char) :
      (String.ofList characters).utf8ByteSize = byteLength characters := by
    induction characters with
    | nil => rfl
    | cons c rest inductionHypothesis =>
        have split : String.ofList (c :: rest) = String.singleton c ++ String.ofList rest := by
          rw [← String.toList_inj]
          simp
        rw [split, String.utf8ByteSize_append, inductionHypothesis]
        simp
  rw [← ofCharacters, String.ofList_toList]

/-- The characters that lie wholly before a byte offset, and all the others. -/
def splitAtByte : (offset : Nat) → List Char → List Char × List Char
  | _, [] => ([], [])
  | offset, c :: rest =>
      if c.utf8Size ≤ offset then
        let (before, after) := splitAtByte (offset - c.utf8Size) rest
        (c :: before, after)
      else
        ([], c :: rest)

/-- Cutting a text where its first part ends gives back that part and the rest. -/
theorem splitAtByte_byteLength (before after : List Char) :
    splitAtByte (byteLength before) (before ++ after) = (before, after) := by
  induction before with
  | nil =>
      cases after with
      | nil => rfl
      | cons c rest => simp [splitAtByte, Nat.not_le.2 c.utf8Size_pos]
  | cons c rest inductionHypothesis =>
      simp [splitAtByte, inductionHypothesis]

end NanoScript.Text
