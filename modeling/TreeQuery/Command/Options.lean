/-!
# Options of the command

A command line gives one selector, at most one source of the document, and switches, in any order.
A switch or a source has a long name behind two dashes; some have a letter behind one dash too, and
letters may share their dash. A value follows its option as the next argument, or in the same
argument: behind an equals sign, or behind the letter. Two dashes alone end the options. An option
that is not known or given again, a value missing and a selector missing or given again are misuse:
`Options.ofArguments?` gives nothing then.
-/
namespace TreeQuery

/-- Where a document comes from. -/
inductive Source where
  /-- The command line. -/
  | inline (text : String)
  /-- Standard input. -/
  | standardInput
  /-- A file. -/
  | file (path : String)
  deriving DecidableEq, Repr

/-- A switch of the command. -/
inductive Switch where
  /-- Print the whole tree first. -/
  | tree
  /-- Print the number of matches alone. -/
  | count
  /-- Print without colours. -/
  | noColor
  /-- Show no notices. -/
  | quiet
  deriving DecidableEq, Repr

/-- An option with a value. -/
inductive ValueOption where
  /-- The path of a file, or a dash for standard input. -/
  | file
  /-- A document. -/
  | json
  deriving DecidableEq, Repr

/-- The source that a value of an option names, if it names one. -/
def ValueOption.source? : ValueOption → String → Option Source
  | file, "" => none
  | file, "-" => some .standardInput
  | file, path => some (.file path)
  | json, text => some (.inline text)

/-- What the command is asked to do. -/
structure Options where
  /-- The selector. -/
  selector : String
  /-- Where the document comes from, if that is given. -/
  source : Option Source
  /-- The switches given. -/
  switches : List Switch
  deriving DecidableEq, Repr

namespace Options

/-- An option, by what may follow it. -/
inductive Name where
  /-- A switch, which nothing follows. -/
  | switch (value : Switch)
  /-- An option with a value. -/
  | value (option : ValueOption)
  deriving DecidableEq, Repr

/-- The option with a long name. -/
def ofLong? : String → Option Name
  | "tree" => some (.switch .tree)
  | "count" => some (.switch .count)
  | "no-color" => some (.switch .noColor)
  | "quiet" => some (.switch .quiet)
  | "file" => some (.value .file)
  | "json" => some (.value .json)
  | _ => none

/-- The option with a letter. -/
def ofLetter? : Char → Option Name
  | 't' => some (.switch .tree)
  | 'c' => some (.switch .count)
  | 'q' => some (.switch .quiet)
  | 'f' => some (.value .file)
  | _ => none

/-- What a command line has given so far. -/
structure Given where
  /-- The selector. -/
  selector : Option String := none
  /-- The source. -/
  source : Option Source := none
  /-- The switches, the last one first. -/
  switches : List Switch := []
  deriving DecidableEq, Repr

namespace Given

/-- Takes a selector, which may be given once. -/
def take (given : Given) (selector : String) : Option Given :=
  match given.selector with
  | none => some { given with selector := some selector }
  | some _ => none

/-- Takes a switch, which may be given once. -/
def turnOn (given : Given) (switch : Switch) : Option Given :=
  if given.switches.contains switch then none
  else some { given with switches := switch :: given.switches }

/-- Takes the value of an option. There is one source, whichever option names it. -/
def supply (given : Given) (option : ValueOption) (value : String) : Option Given :=
  match given.source, option.source? value with
  | none, some source => some { given with source := some source }
  | _, _ => none

/-- Takes letters behind one dash, and gives the option that the next argument is the value of, if
the last letter is one. -/
def takeLetters (given : Given) : List Char → Option (Given × Option ValueOption)
  | [] => some (given, none)
  | letter :: rest =>
    match ofLetter? letter with
    | none => none
    | some (.switch switch) => (given.turnOn switch).bind fun given => given.takeLetters rest
    | some (.value option) =>
      match rest with
      | [] => some (given, some option)
      | '=' :: value => (given.supply option (String.ofList value)).map (·, none)
      | value => (given.supply option (String.ofList value)).map (·, none)

/-- Takes a long name, with its value if there is an equals sign, and gives the option that the next
argument is the value of, if it is one. -/
def takeLong (given : Given) (text : List Char) : Option (Given × Option ValueOption) :=
  match ofLong? (String.ofList (text.takeWhile (· != '='))), text.dropWhile (· != '=') with
  | some (.switch switch), [] => (given.turnOn switch).map (·, none)
  | some (.value option), [] => some (given, some option)
  | some (.value option), _ :: value => (given.supply option (String.ofList value)).map (·, none)
  | _, _ => none

/-- Takes an argument that is not the value of an option before it. -/
def takeArgument (given : Given) (argument : String) : Option (Given × Option ValueOption) :=
  match argument.toList with
  | '-' :: '-' :: text => given.takeLong text
  | '-' :: letter :: letters => given.takeLetters (letter :: letters)
  | _ => (given.take argument).map (·, none)

/-- Whether an argument is options and cannot be the value of one. -/
def isOptions (argument : String) : Bool := argument.startsWith "-" && argument != "-"

/-- Takes arguments, the first one as the value of an option that waits for it. -/
def takeAll (given : Given) (waiting : Option ValueOption) : List String → Option Given
  | [] => if waiting.isSome then none else some given
  | argument :: rest =>
    match waiting with
    | some option =>
      if isOptions argument then none
      else (given.supply option argument).bind fun given => given.takeAll none rest
    | none =>
      if argument = "--" then rest.foldlM take given
      else (given.takeArgument argument).bind fun (given, waiting) => given.takeAll waiting rest

end Given

/-- The options that arguments give. -/
def ofArguments? (arguments : List String) : Option Options := do
  let given ← Given.takeAll {} none arguments
  let selector ← given.selector
  some ⟨selector, given.source, given.switches⟩

/-- Whether a switch is given. -/
def has (options : Options) (switch : Switch) : Bool := options.switches.contains switch

end Options

end TreeQuery
