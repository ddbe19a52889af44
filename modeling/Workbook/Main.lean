import Workbook.CommandLine

/-!
# The program

Runs the command line on real files.
-/

namespace Workbook.CommandLine

/-- The text of a fault of the operating system with its number. -/
def faultText (code : UInt32) (details : String) : String :=
  details ++ " (os error " ++ toString code ++ ")"

/-- The reason of a file that cannot be used. -/
def reasonOf : IO.Error → String
  | .noFileOrDirectory _ code details => faultText code details
  | .permissionDenied _ code details => faultText code details
  | .inappropriateType _ code details => faultText code details
  | .resourceExhausted _ code details => faultText code details
  | .alreadyExists _ code details => faultText code details
  | .invalidArgument _ code details => faultText code details
  | .otherError code details => faultText code details
  | fault => toString fault

/-- Read the bytes at a path. -/
def readSource (path : String) : IO (Except String ByteArray) := do
  try
    return .ok (← IO.FS.readBinFile path)
  catch fault => return .error (reasonOf fault)

/-- Write a text, and say why it could not be written. -/
def writeText (stream : IO.FS.Stream) (text : String) : IO (Option String) := do
  try
    stream.putStr text
    stream.flush
    return none
  catch fault => return some (reasonOf fault)

/-- Write a text to a file, and say why the file could not be created or written. -/
def writeTarget (path text : String) : IO (Except String (Option String)) := do
  try
    let handle ← IO.FS.Handle.mk path .write
    return .ok (← writeText (.ofHandle handle) text)
  catch fault => return .error (reasonOf fault)

/-- The host of a run whose source has been read, and whose document has been written if there is one. -/
def hostAfter (i : Invocation) (source : Except String ByteArray) : Stage → IO Host
  | .compiled _ book => do
    let text := book.document i.layout
    match i.output with
    | none =>
      let refusal ← writeText (← IO.getStdout) text
      return {
        read := fun _ => source, create := fun _ => .ok .storage
        stdout := refusal.elim .storage (.fullTerminal i.layout) }
    | some path =>
      let target ← writeTarget path text
      return { read := fun _ => source, create := fun _ => target.map (·.elim .storage .fullDevice) }
  | _ => return { read := fun _ => source, create := fun _ => .ok .storage }

/-- Print the lines of a run. -/
def printLines (r : Report) : IO UInt32 := do
  let err ← IO.getStderr
  for line in r.lines do err.putStrLn line
  return UInt32.ofNat r.exitCode

end Workbook.CommandLine

open Workbook.CommandLine in
/-- Run the program. -/
def main (args : List String) : IO UInt32 := do
  match parse args with
  | .ok i =>
    let source ← readSource i.input
    let stage := i.afterRead (source >>= decodeSource)
    let host ← hostAfter i source stage
    printLines (i.finish host.files stage)
  | _ =>
    let host : Host := { read := fun _ => .error "", create := fun _ => .ok .storage }
    let report := execute host.files args
    IO.print report.stdout
    printLines report
