import NanoScript.Bracket.Balance
import NanoScript.Diagnostic
import NanoScript.Text.Blank

/-!
Contract: a conversation in which lines are typed and answered.

Owns:
- gathering lines until their brackets balance; a line whose brackets can never balance is
  refused, and what was gathered stays;
- the answer to what was gathered: nothing to blanks, the end to the word `exit`, and else the
  value or the failure of a run in the one global scope of the conversation;
- the words at the beginning and at the end.
-/

namespace NanoScript

/-- A conversation so far: the scope that runs share, the lines that await an answer, and what was
shown, reported and refused. -/
structure Dialogue where
  state : State
  scope : ScopeId
  gathered : String
  shown : Array String
  reports : Array (String × Option String)
  refusals : Array String

namespace Dialogue

/-- What is shown where a line can be typed. -/
def prompt : String :=
  "nano> "

/-- The name that reports give to what was typed. -/
def sourceName : String :=
  "<repl>"

/-- The words at the beginning.  A conversation without a history says so. -/
def greeting (hasHistory : Bool) : List String :=
  ["NanoScript REPL v0.1.0\n", "Type 'exit' or press Ctrl-D to quit.\n"] ++
    if hasHistory then [] else ["No previous history.\n"]

/-- The words after the last line. -/
def farewell : String :=
  "\nExiting.\n"

/-- A conversation at its first prompt. -/
def opening (hasHistory : Bool) : Dialogue where
  state := State.initial.2
  scope := State.initial.1
  gathered := ""
  shown := (greeting hasHistory ++ [prompt]).toArray
  reports := #[]
  refusals := #[]

/-- A line without the characters that end it, and those characters. -/
def splitLineEnd (line : List Char) : List Char × List Char :=
  match line.reverse with
  | '\n' :: '\r' :: rest => (rest.reverse, ['\r', '\n'])
  | '\n' :: rest => (rest.reverse, ['\n'])
  | _ => (line, [])

/-- Cut a text behind each newline. -/
def lines : List Char → List (List Char)
  | [] => []
  | c :: rest =>
      if c = '\n' then [c] :: lines rest
      else
        match lines rest with
        | [] => [[c]]
        | line :: others => (c :: line) :: others

/-- Run what was gathered and show its output and its value, or report its failure. -/
def evaluate (dialogue : Dialogue) (source : String) : Dialogue :=
  let invoker := Invoker.upTo Host.standard ordinaryDepth
  let (outcome, state) := run invoker source dialogue.scope dialogue.state
  let shown := dialogue.shown ++ state.output.map (· ++ "\n")
  let dialogue := { dialogue with state := { state with output := #[] } }
  match outcome with
  | .ok value => { dialogue with shown := shown.push (value.text ++ "\n") }
  | .error failure =>
      let diagnostic := failure.diagnostic
      { dialogue with
        shown := shown
        reports :=
          dialogue.reports.push
            (diagnostic.headline, diagnostic.location? sourceName source) }

/-- Answer what was gathered; there is no answer to the word that ends a conversation. -/
def answer? (dialogue : Dialogue) (text : String) : Option Dialogue :=
  let source := Text.trimmed text
  if source = "" then some dialogue
  else if source.toLower = "exit" then none
  else some (dialogue.evaluate source)

/-- Go on with the lines that are still to come. -/
def continueWith : List (List Char) → Dialogue → Dialogue
  | [], dialogue => { dialogue with shown := dialogue.shown.push farewell }
  | line :: rest, dialogue =>
      let (text, lineEnd) := splitLineEnd (dialogue.gathered.toList ++ line)
      let verdict := Bracket.judge (String.ofList text)
      match verdict with
      | .balanced =>
          match dialogue.answer? (String.ofList text) with
          | none => dialogue
          | some dialogue =>
              continueWith rest
                { dialogue with gathered := "", shown := dialogue.shown.push prompt }
      | .unfinished =>
          continueWith rest { dialogue with gathered := String.ofList (text ++ lineEnd) }
      | .unmatched .. =>
          continueWith rest
            { dialogue with
              gathered := String.ofList text
              refusals := dialogue.refusals ++ verdict.complaint?.toArray }

/-- The conversation in which a text is typed. -/
def ofInput (hasHistory : Bool) (input : String) : Dialogue :=
  continueWith (lines input.toList) (opening hasHistory)

/-- All that was shown. -/
def transcript (dialogue : Dialogue) : String :=
  String.join dialogue.shown.toList

end Dialogue

end NanoScript
