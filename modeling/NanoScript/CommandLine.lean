import NanoScript.Diagnostic
import NanoScript.Phrase.Record

/-!
Contract: the command line of the interpreter.

Owns:
- reading arguments: from left to right, the first one that asks for help or the version or that
  is out of place decides;
- what a request writes and the exit status it ends with.

Files are read by the caller, which passes in what it found under a path.
-/

namespace NanoScript

namespace CommandLine

/-- Where a program is taken from. -/
inductive Origin where
  | inline (source : String)
  | file (path : String)
deriving DecidableEq

/-- What the arguments ask for. -/
inductive Request where
  | help
  | version
  | evaluate (origin : Origin)
  | describe (origin : Origin)
deriving DecidableEq

/-- What was read so far. -/
structure Options where
  describe : Bool
  inline : Option String
  file : Option String

/-- The options before the first argument. -/
def Options.none : Options :=
  ⟨false, Option.none, Option.none⟩

/-- Take the text of a program, which may be given once. -/
def Options.setInline? (options : Options) (source : String) : Option Options :=
  if options.inline.isSome then Option.none else some { options with inline := some source }

/-- Take the path of a file, which may be given once and is not empty. -/
def Options.setFile? (options : Options) (path : String) : Option Options :=
  if options.file.isSome ∨ path = "" then Option.none else some { options with file := some path }

/-- The request that options make if there is exactly one program among them. -/
def Options.request? (options : Options) : Option Request :=
  let origin? :=
    match options.inline, options.file with
    | some source, .none => some (Origin.inline source)
    | .none, some path => some (Origin.file path)
    | _, _ => .none
  origin?.map fun origin => if options.describe then .describe origin else .evaluate origin

/-- Read arguments behind the mark that ends the options. -/
def readPaths (options : Options) : List String → Option Request
  | [] => options.request?
  | path :: rest => (options.setFile? path).bind fun options => readPaths options rest

/-- Whether an argument looks like an option and so cannot be the value of one. -/
def looksLikeOption (argument : String) : Bool :=
  "-".isPrefixOf argument && decide (argument ≠ "-")

/-- Read arguments; there is no request if they are not in order. -/
def readArguments (options : Options) : List String → Option Request
  | [] => options.request?
  | argument :: rest =>
      match argument.toList with
      | ['-', '-'] => readPaths options rest
      | '-' :: '-' :: name =>
          match String.ofList name with
          | "ast" =>
              if options.describe then none
              else readArguments { options with describe := true } rest
          | "help" => some .help
          | "version" => some .version
          | _ => none
      | ['-', 'e'] =>
          match rest with
          | [] => none
          | source :: rest =>
              if looksLikeOption source then none
              else
                match options.setInline? source with
                | none => none
                | some options => readArguments options rest
      | '-' :: 'e' :: attached =>
          let source := if attached.head? = some '=' then attached.tail else attached
          match options.setInline? (String.ofList source) with
          | none => none
          | some options => readArguments options rest
      | '-' :: 'h' :: _ => some .help
      | '-' :: 'V' :: _ => some .version
      | '-' :: _ :: _ => none
      | _ =>
          match options.setFile? argument with
          | none => none
          | some options => readArguments options rest

/-- What the arguments ask for; nothing if they are not in order. -/
def request? (arguments : List String) : Option Request :=
  readArguments .none arguments

/-! ## Carrying out requests -/

/-- What is found under the path of a file. -/
inductive Content where
  | text (source : String)
  | missing
  | directory
  | undecodable
  | unreadable (reason : String)
deriving DecidableEq

/-- Why the content of a file is no source text. -/
def Content.source : Content → Except String String
  | .text source => .ok source
  | .missing => .error "No such file or directory (os error 2)"
  | .directory => .error "Is a directory (os error 21)"
  | .undecodable => .error "stream did not contain valid UTF-8"
  | .unreadable reason => .error reason

/-- What is written to the error stream: the headline of a report and its place, or a plain
line. -/
inductive Complaint where
  | diagnostic (diagnostic : Diagnostic) (location : Option String)
  | plain (text : String)
deriving DecidableEq

/-- How a request ends. -/
structure Result where
  status : Nat
  output : String
  complaint : Option Complaint

/-- The name that reports give to a program on the command line. -/
def inlineName : String :=
  "<inline>"

/-- The version line. -/
def versionText : String :=
  "nanoscript 0.1.0\n"

/-- The help text. -/
def helpText : String :=
  "Runs a nanoscript program and prints the value of its last statement\n" ++
  "\n" ++
  "Usage: nanoscript [OPTIONS] <-e <SOURCE>|FILE>\n" ++
  "\n" ++
  "Arguments:\n" ++
  "  [FILE]  Script to run\n" ++
  "\n" ++
  "Options:\n" ++
  "      --ast      Print the parsed syntax tree as JSON instead of evaluating it\n" ++
  "  -e <SOURCE>    Evaluate the given source text instead of reading a file\n" ++
  "  -h, --help     Print help\n" ++
  "  -V, --version  Print version\n"

/-- The end of a request that fails with a report on a named source text. -/
def failed (output : String) (diagnostic : Diagnostic) (name source : String) : Result :=
  ⟨1, output, some (.diagnostic diagnostic (diagnostic.location? name source))⟩

/-- Describe the program that a named source text spells out. -/
def describeSource (name source : String) : Result :=
  match Phrase.ofSource source with
  | .ok program => ⟨0, program.record.compact ++ "\n", none⟩
  | .error error => failed "" error.diagnostic name source

/-- Run a named source text and show the value of its last statement. -/
def evaluateSource (name source : String) : Result :=
  let (scope, state) := State.initial
  let (outcome, state) := run (Invoker.upTo Host.standard ordinaryDepth) source scope state
  let printed := String.join (state.output.toList.map (· ++ "\n"))
  match outcome with
  | .ok value => ⟨0, printed ++ value.text ++ "\n", none⟩
  | .error failure => failed printed failure.diagnostic name source

/-- Carry out an action on the source text of an origin, given the content of files. -/
def withSource (content : String → Content) (action : (name source : String) → Result) :
    Origin → Result
  | .inline source => action inlineName source
  | .file path =>
      match (content path).source with
      | .ok source => action path source
      | .error reason => ⟨1, "", some (.plain ("Cannot read " ++ path ++ ": " ++ reason))⟩

/-- Carry out what the arguments ask for, given the content of files. -/
def execute (content : String → Content) (arguments : List String) : Result :=
  match request? arguments with
  | none => ⟨2, "", none⟩
  | some .help => ⟨0, helpText, none⟩
  | some .version => ⟨0, versionText, none⟩
  | some (.evaluate origin) => withSource content evaluateSource origin
  | some (.describe origin) => withSource content describeSource origin

/-- The file that a request reads. -/
def Request.path? : Request → Option String
  | .evaluate (.file path) | .describe (.file path) => some path
  | _ => none

end CommandLine

end NanoScript
