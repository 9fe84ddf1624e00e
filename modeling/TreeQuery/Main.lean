import TreeQuery.Command.Run

/-!
# The command

Reads the arguments and the source they name, runs the command, and prints its report.
-/
namespace TreeQuery

/-- The reason for a failed read, as the system words it. -/
def reasonOf : IO.Error → String
  | .noFileOrDirectory _ code details => osReason code details
  | .permissionDenied _ code details => osReason code details
  | .inappropriateType _ code details => osReason code details
  | .invalidArgument _ code details => osReason code details
  | .resourceExhausted _ code details => osReason code details
  | .hardwareFault code details => osReason code details
  | .otherError code details => osReason code details
  | error => toString error
where
  /-- The words of the system and its number for them. -/
  osReason (code : UInt32) (details : String) : String :=
    details ++ " (os error " ++ toString code ++ ")"

/-- Reads a stream to its end. -/
partial def readAll (stream : IO.FS.Stream) (read : ByteArray) : IO ByteArray := do
  let chunk ← stream.read 65536
  if chunk.isEmpty then return read else readAll stream (read ++ chunk)

/-- Reads the source of a document, if reading it is needed. -/
def readSource : Option Source → IO (Except String ByteArray)
  | some .standardInput =>
    try return .ok (← readAll (← IO.getStdin) ByteArray.empty)
    catch error => return .error (reasonOf error)
  | some (.file path) =>
    try return .ok (← IO.FS.readBinFile path)
    catch error => return .error (reasonOf error)
  | _ => return .ok ByteArray.empty

/-- Prints a report and gives its exit code. -/
def Report.print (report : Report) : IO UInt32 := do
  IO.print report.output
  IO.eprint report.errors
  return report.code.toUInt32

end TreeQuery

/-- Runs the command on its arguments. -/
def main (arguments : List String) : IO UInt32 :=
  match TreeQuery.Options.ofArguments? arguments with
  | none => TreeQuery.Report.misuse.print
  | some options => do
    (options.run (← TreeQuery.readSource options.source)).print
