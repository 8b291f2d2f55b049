import NanoScript.CommandLine

/-!
Contract: the interpreter as a program.

Owns reading the file that the arguments name and writing the result; all else is the command line.
-/

namespace NanoScript

/-- What is found under a path. -/
def readContent (path : String) : IO CommandLine.Content := do
  try
    let bytes ← IO.FS.readBinFile path
    match String.fromUTF8? bytes with
    | some source => return .text source
    | none => return .undecodable
  catch error =>
    match error with
    | .noFileOrDirectory .. => return .missing
    | .inappropriateType .. => return .directory
    | other => return .unreadable (toString other)

/-- Write a complaint to the error stream. -/
def writeComplaint : CommandLine.Complaint → IO Unit
  | .plain text => IO.eprintln text
  | .diagnostic diagnostic location => do
      IO.eprintln ("Error: " ++ diagnostic.headline)
      if let some place := location then
        IO.eprintln ("  at " ++ place)
      IO.eprintln ("  " ++ diagnostic.label)

/-- Carry out what the arguments ask for and return the exit status. -/
def runCommandLine (arguments : List String) : IO UInt32 := do
  let path? := (CommandLine.request? arguments).bind CommandLine.Request.path?
  let content ← match path? with
    | some path => readContent path
    | none => pure .missing
  let result := CommandLine.execute (fun _ => content) arguments
  IO.print result.output
  if let some complaint := result.complaint then
    writeComplaint complaint
  return UInt32.ofNat result.status

end NanoScript

def main (arguments : List String) : IO UInt32 :=
  NanoScript.runCommandLine arguments
