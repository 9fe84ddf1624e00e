/-!
# Reports of the command

A command ends with an exit code and with what it printed on both of its streams. A failure is
printed with the reasons behind it: a single reason is indented, several are numbered.
-/
namespace TreeQuery

/-- Lines as a text, each with its line feed. -/
def unlines (lines : List String) : String := String.join (lines.map (· ++ "\n"))

/-- What the command did. -/
structure Report where
  /-- The exit code. -/
  code : Nat
  /-- What it printed on standard output. -/
  output : String
  /-- What it printed on standard error. -/
  errors : String
  deriving DecidableEq, Repr

/-- The report of a command that ended because a text cannot hold the next line. What the runtime
says then besides these words, such as the place in the program, is left out. -/
def Report.stopped (lines : List String) : Report := ⟨101, unlines lines, "capacity overflow\n"⟩

/-- Why a command could not do its work. -/
structure Failure where
  /-- What could not be done. -/
  context : String
  /-- Why, each reason followed by the reason behind it. -/
  causes : List String
  deriving DecidableEq, Repr

namespace Failure

/-- A reason behind a lead, with its later lines set below its first one. -/
def indented (lead : String) (cause : String) : String :=
  lead ++ String.ofList (cause.toList.flatMap fun character =>
    if character = '\n' then '\n' :: List.replicate lead.length ' ' else [character])

/-- The lead of a reason with a number. -/
def numberLead (number : Nat) : String :=
  let digits := toString number
  String.ofList (List.replicate (5 - digits.length) ' ') ++ digits ++ ": "

/-- The reasons, as they are printed. -/
def causeTexts (causes : List String) : List String :=
  match causes with
  | [cause] => [indented "    " cause]
  | _ => causes.zipIdx.map fun (cause, number) => indented (numberLead number) cause

/-- The text of a failure. -/
def toText (failure : Failure) : String :=
  "Error: " ++ failure.context ++ "\n" ++
    if failure.causes.isEmpty then "" else "\nCaused by:\n" ++ unlines (causeTexts failure.causes)

end Failure

end TreeQuery
