import NanoScript.Highlight

/-!
Contract: what a terminal makes of a line with codes.

Owns:
- the runs of a text, which are the parts between its codes, each with the code in force;
- the text without its codes, and the ranges of it that are shown in a colour;
- the theorems that rendered segments come back, their text and their paints alike.

A code is everything from an escape character and an opening bracket up to the letter m.
-/

namespace NanoScript

namespace Terminal

/-- A part of a text between two codes, and the code in force there. -/
structure Run where
  code : String
  text : List Char

/-- Where a terminal is in its input: behind some text under a code, or inside the next code. -/
inductive Mode where
  | showing (code : String) (shown : List Char)
  | reading (figures : List Char)

/-- The runs of the rest of a text. -/
def runsFrom : Mode → List Char → List Run
  | .showing code shown, [] => [⟨code, shown⟩]
  | .reading _, [] => []
  | .showing code shown, '\x1b' :: '[' :: rest => ⟨code, shown⟩ :: runsFrom (.reading []) rest
  | .showing code shown, c :: rest => runsFrom (.showing code (shown ++ [c])) rest
  | .reading figures, 'm' :: rest => runsFrom (.showing (String.ofList figures) []) rest
  | .reading figures, c :: rest => runsFrom (.reading (figures ++ [c])) rest

/-- The code that ends all colours. -/
def reset : String :=
  "0"

/-- The runs of a text, no colour being in force where it begins. -/
def runs (text : String) : List Run :=
  runsFrom (.showing reset []) text.toList

/-- A text with all its codes taken out. -/
def withoutCodes (text : String) : String :=
  String.ofList ((runs text).flatMap Run.text)

/-- The ranges of runs that are shown in a colour, with its code, from a byte offset on. -/
def colouredFrom (offset : Nat) : List Run → List (Span × String)
  | [] => []
  | run :: rest =>
      let stop := offset + Text.byteLength run.text
      if run.code = reset then colouredFrom stop rest
      else (⟨offset, stop⟩, run.code) :: colouredFrom stop rest

/-- The ranges of a text that are shown in a colour, with its code.  The codes themselves take no
room in it. -/
def coloured (text : String) : List (Span × String) :=
  colouredFrom 0 (runs text)

/-! ## Plain text and codes -/

variable {code : String} {shown text : List Char}

theorem runsFrom_showing_append (plain : ∀ c ∈ text, c ≠ '\x1b') (rest : List Char) :
    runsFrom (.showing code shown) (text ++ rest) =
      runsFrom (.showing code (shown ++ text)) rest := by
  induction text generalizing shown with
  | nil => rw [List.nil_append, List.append_nil]
  | cons c text inductionHypothesis =>
      obtain ⟨noEscape, plain⟩ := List.forall_mem_cons.1 plain
      have next : runsFrom (.showing code shown) (c :: (text ++ rest)) =
          runsFrom (.showing code (shown ++ [c])) (text ++ rest) := by
        rw [runsFrom]
        rintro further same -
        exact noEscape same
      rw [List.cons_append, next, inductionHypothesis plain, List.append_assoc,
        List.singleton_append]

theorem runsFrom_reading_append {figures more : List Char} (inside : 'm' ∉ more)
    (rest : List Char) :
    runsFrom (.reading figures) (more ++ 'm' :: rest) =
      runsFrom (.showing (String.ofList (figures ++ more)) []) rest := by
  induction more generalizing figures with
  | nil => rw [List.nil_append, List.append_nil, runsFrom]
  | cons c more inductionHypothesis =>
      have noEnd := List.ne_of_not_mem_cons inside
      have next : runsFrom (.reading figures) (c :: (more ++ 'm' :: rest)) =
          runsFrom (.reading (figures ++ [c])) (more ++ 'm' :: rest) := by
        rw [runsFrom]
        exact noEnd.symm
      rw [List.cons_append, next,
        inductionHypothesis (List.not_mem_of_not_mem_cons inside), List.append_assoc,
        List.singleton_append]

/-- A code ends the run before it and is in force from there on. -/
theorem runsFrom_code {other : String} (inside : 'm' ∉ other.toList) (rest : List Char) :
    runsFrom (.showing code shown) (("\x1b[" ++ other ++ "m").toList ++ rest) =
      ⟨code, shown⟩ :: runsFrom (.showing other []) rest := by
  have characters : ("\x1b[" ++ other ++ "m").toList ++ rest =
      '\x1b' :: '[' :: (other.toList ++ 'm' :: rest) := by
    simp
  rw [characters, runsFrom, runsFrom_reading_append inside, List.nil_append, String.ofList_toList]

end Terminal

/-! ## Paints -/

/-- The code of a paint is no reset, and the letter that ends codes does not occur in it. -/
theorem Paint.code?_eq_some {paint : Paint} {code : String} (isCode : paint.code? = some code) :
    code ≠ Terminal.reset ∧ 'm' ∉ code.toList := by
  cases paint <;> cases isCode <;> decide

/-- Text in a paint is a run of its own, and plain text goes on with the run before it. -/
theorem Paint.runsFrom_apply {shown text : List Char} (noEscape : ∀ c ∈ text, c ≠ '\x1b')
    (paint : Paint) (rest : List Char) :
    Terminal.runsFrom (.showing Terminal.reset shown)
        ((paint.apply (String.ofList text)).toList ++ rest) =
      match paint.code? with
      | none => Terminal.runsFrom (.showing Terminal.reset (shown ++ text)) rest
      | some code =>
          ⟨Terminal.reset, shown⟩ :: ⟨code, text⟩ ::
            Terminal.runsFrom (.showing Terminal.reset []) rest := by
  unfold apply
  cases isCode : paint.code? with
  | none =>
      change Terminal.runsFrom _ ((String.ofList text).toList ++ rest) = _
      rw [String.toList_ofList, Terminal.runsFrom_showing_append noEscape]
  | some code =>
      change Terminal.runsFrom _ (("\x1b[" ++ code ++ "m" ++ String.ofList text ++
        ("\x1b[" ++ Terminal.reset ++ "m")).toList ++ rest) = _
      have noEnd : 'm' ∉ Terminal.reset.toList := by decide
      rw [String.toList_append, String.toList_append, String.toList_ofList, List.append_assoc,
        List.append_assoc, Terminal.runsFrom_code (code?_eq_some isCode).2,
        Terminal.runsFrom_showing_append noEscape, List.nil_append, Terminal.runsFrom_code noEnd]

/-! ## Rendered segments -/

namespace Highlight

/-- The text of segments, one behind the other. -/
def textOf (segments : List Segment) : List Char :=
  segments.flatMap Segment.text

/-- The ranges of segments that have a code, and that code, from a byte offset on. -/
def paintedFrom (offset : Nat) : List Segment → List (Span × String)
  | [] => []
  | segment :: rest =>
      let stop := offset + Text.byteLength segment.text
      match segment.paint.code? with
      | none => paintedFrom stop rest
      | some code => (⟨offset, stop⟩, code) :: paintedFrom stop rest

theorem toList_render_cons (segment : Segment) (rest : List Segment) :
    (render (segment :: rest)).toList =
      (segment.paint.apply (String.ofList segment.text)).toList ++ (render rest).toList := by
  unfold render
  rw [List.map_cons, String.join_cons, String.toList_append]

/-- The runs of rendered segments have the text of the segments, behind what is shown already. -/
theorem flatMap_runsFrom_render {segments : List Segment}
    (noEscape : ∀ c ∈ textOf segments, c ≠ '\x1b') (shown : List Char) :
    (Terminal.runsFrom (.showing Terminal.reset shown) (render segments).toList).flatMap
        Terminal.Run.text =
      shown ++ textOf segments := by
  induction segments generalizing shown with
  | nil => rfl
  | cons segment rest inductionHypothesis =>
      obtain ⟨here, behind⟩ := List.forall_mem_append.1 noEscape
      rw [toList_render_cons, Paint.runsFrom_apply here]
      cases segment.paint.code? with
      | none =>
          dsimp only
          rw [inductionHypothesis behind, List.append_assoc]
          rfl
      | some code =>
          dsimp only
          rw [List.flatMap_cons, List.flatMap_cons, inductionHypothesis behind]
          rfl

/-- Rendered segments are shown in colours where the segments have a code. -/
theorem colouredFrom_runsFrom_render {segments : List Segment}
    (noEscape : ∀ c ∈ textOf segments, c ≠ '\x1b') (offset : Nat) (shown : List Char) :
    Terminal.colouredFrom offset
        (Terminal.runsFrom (.showing Terminal.reset shown) (render segments).toList) =
      paintedFrom (offset + Text.byteLength shown) segments := by
  induction segments generalizing offset shown with
  | nil => rfl
  | cons segment rest inductionHypothesis =>
      obtain ⟨here, behind⟩ := List.forall_mem_append.1 noEscape
      rw [toList_render_cons, Paint.runsFrom_apply here, paintedFrom]
      cases isCode : segment.paint.code? with
      | none =>
          dsimp only
          rw [inductionHypothesis behind, Text.byteLength_append, Nat.add_assoc]
      | some code =>
          dsimp only
          rw [Terminal.colouredFrom, if_pos rfl, Terminal.colouredFrom,
            if_neg (Paint.code?_eq_some isCode).1, inductionHypothesis behind]
          rfl

/-- Without its codes a rendered line is the text of its segments. -/
theorem withoutCodes_render {segments : List Segment}
    (noEscape : ∀ c ∈ textOf segments, c ≠ '\x1b') :
    Terminal.withoutCodes (render segments) = String.ofList (textOf segments) :=
  congrArg String.ofList (flatMap_runsFrom_render noEscape [])

theorem coloured_render {segments : List Segment}
    (noEscape : ∀ c ∈ textOf segments, c ≠ '\x1b') :
    Terminal.coloured (render segments) = paintedFrom 0 segments :=
  colouredFrom_runsFrom_render noEscape 0 []

end Highlight

end NanoScript
