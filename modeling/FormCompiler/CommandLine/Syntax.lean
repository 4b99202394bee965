/-!
# FormCompiler.CommandLine.Syntax

Reading the arguments of one command by its rules.

* `--name value` and `--name=value` give an option its value; a flag has
  none.  After `--` every argument is positional.  A value that stands by
  itself may not begin with a dash, unless it is the dash alone.
* An option or positional value is settled, which is when it is checked,
  once the next one begins or the arguments end; until then it is pending.
* The name of a subcommand ends the arguments of the command; the rest
  belongs to the subcommand.
* A request for help or for the version ends everything, except that a
  pending value is settled first.
-/

namespace FormCompiler.CommandLine

/-! ## rules -/

/-- What the value of an option may be. -/
inductive ValueKind where
  /-- A path, which is not empty. -/
  | path
  | text
  /-- One of some words. -/
  | oneOf (words : List String)
deriving DecidableEq, Repr

/-- May this be the value? -/
def ValueKind.accepts : ValueKind → String → Bool
  | path, value => value ≠ ""
  | text, _ => true
  | oneOf words, value => words.contains value

/-- The rule of an option or positional argument. -/
structure ArgumentRule where
  name : String
  /-- The kind of its value; a flag has none. -/
  value : Option ValueKind
  isRepeatable : Bool
deriving DecidableEq, Repr

def ArgumentRule.flag (name : String) : ArgumentRule := ⟨name, none, false⟩

/-- An argument that is given at most once. -/
def ArgumentRule.single (name : String) (kind : ValueKind) : ArgumentRule :=
  ⟨name, some kind, false⟩

/-- An argument that may be given several times. -/
def ArgumentRule.repeated (name : String) (kind : ValueKind) : ArgumentRule :=
  ⟨name, some kind, true⟩

/-- The rules of a command. -/
structure CommandRule (σ : Type) where
  options : List ArgumentRule
  positionals : List ArgumentRule
  /-- The subcommands by name. -/
  subcommands : List (String × σ)
  help : String
  /-- The text of the version, where the command tells it. -/
  version : Option String

/-! ## how reading ends early -/

/-- What is wrong with the arguments. -/
inductive UsageError where
  | unknownArgument (argument : String)
  | missingValue (name : String)
  | unexpectedValue (name value : String)
  | invalidValue (name value : String)
  | repeatedArgument (name : String)
  | missingArgument (name : String)
  | missingSubcommand
  | unknownSubcommand (name : String)
deriving DecidableEq, Repr

def UsageError.message : UsageError → String
  | unknownArgument argument => "unexpected argument '" ++ argument ++ "' found"
  | missingValue name => "a value is required for '" ++ name ++ "' but none was supplied"
  | unexpectedValue name value => "unexpected value '" ++ value ++ "' for '" ++ name ++ "' found"
  | invalidValue name value => "invalid value '" ++ value ++ "' for '" ++ name ++ "'"
  | repeatedArgument name => "the argument '" ++ name ++ "' cannot be used multiple times"
  | missingArgument name => "the required argument '" ++ name ++ "' was not provided"
  | missingSubcommand => "a subcommand is required but was not provided"
  | unknownSubcommand name => "unrecognized subcommand '" ++ name ++ "'"

/-- Why no command is run. -/
inductive Stop where
  | usage (error : UsageError)
  /-- A text is printed instead, such as help. -/
  | print (text : String)
deriving DecidableEq, Repr

/-- Reading arguments, unless it stops. -/
abbrev Reading (α : Type) := Except Stop α

def misused {α : Type} (error : UsageError) : Reading α := .error (.usage error)

/-! ## reading -/

/-- An argument that is not settled yet. -/
structure Pending where
  rule : ArgumentRule
  /-- Its value; nothing while it waits for one. -/
  value : Option String

/-- What has been read of the arguments of a command. -/
structure Progress where
  /-- The settled arguments and their values, in order. -/
  settled : List (String × String)
  pending : Option Pending
  /-- The positional arguments that are still to come. -/
  positionals : List ArgumentRule
  /-- Whether `--` was met. -/
  onlyPositionals : Bool

namespace Progress

/-- Does an option wait for its value? -/
def isWaiting (p : Progress) : Bool := p.pending.any fun pending => pending.value.isNone

/-- The values given to an argument. -/
def values (p : Progress) (name : String) : List String :=
  p.settled.filterMap fun given => if given.1 = name then some given.2 else none

/-- Checks an argument and adds it to the settled ones. -/
def add (p : Progress) (rule : ArgumentRule) (value : String) : Reading Progress :=
  if !rule.isRepeatable && p.settled.any (·.1 == rule.name) then
    misused (.repeatedArgument rule.name)
  else if rule.value.any fun kind => !kind.accepts value then
    misused (.invalidValue rule.name value)
  else .ok { p with settled := p.settled ++ [(rule.name, value)] }

def settle (p : Progress) : Reading Progress :=
  match p.pending with
  | none => .ok p
  | some ⟨rule, none⟩ => misused (.missingValue rule.name)
  | some ⟨rule, some value⟩ => { p with pending := none }.add rule value

/-- Leaves an argument pending, the one before being settled. -/
def expect (p : Progress) (rule : ArgumentRule) (value : Option String) : Reading Progress := do
  return { ← p.settle with pending := some ⟨rule, value⟩ }

/-- Takes an option with what stands behind its `=`, if anything. -/
def takeOption (p : Progress) (rule : ArgumentRule) (attached : Option String) :
    Reading Progress := do
  match rule.value, attached with
  | none, some value => misused (.unexpectedValue rule.name value)
  | none, none => (← p.settle).add rule ""
  | some _, some value => (← p.settle).add rule value
  | some _, none => p.expect rule none

/-- Takes a value that stands by itself. -/
def takeValue (p : Progress) (value : String) : Reading Progress :=
  match p.positionals with
  | [] => misused (.unknownArgument value)
  | rule :: rules => do
    return { ← p.expect rule (some value) with positionals := rules }

/-- Gives the waiting option its value. -/
def fill (p : Progress) (value : String) : Progress :=
  { p with pending := p.pending.map fun pending => { pending with value := some value } }

/-- Settles what is pending and prints a text. -/
def stopWith {α : Type} (p : Progress) (text : String) : Reading α := do
  let _ ← p.settle
  .error (.print text)

end Progress

/-- The name behind `--`, and what stands behind its `=`. -/
def longName? (argument : String) : Option (String × Option String) :=
  match argument.toList with
  | '-' :: '-' :: rest =>
    let name := rest.takeWhile (· ≠ '=')
    let behind := rest.dropWhile (· ≠ '=')
    some (String.ofList name, if behind.isEmpty then none else some (String.ofList (behind.drop 1)))
  | _ => none

/-- The letter behind a single dash. -/
def shortLetter? (argument : String) : Option Char :=
  match argument.toList with
  | '-' :: letter :: _ => if letter = '-' then none else some letter
  | _ => none

namespace CommandRule

variable {σ : Type}

def start (rule : CommandRule σ) : Progress := ⟨[], none, rule.positionals, false⟩

/-- Takes an argument that begins with two dashes. -/
def takeLong (rule : CommandRule σ) (p : Progress) (name : String) (attached : Option String) :
    Reading Progress :=
  match rule.options.find? (·.name = name), attached, rule.version with
  | some option, _, _ => p.takeOption option attached
  | none, none, version? =>
    if name = "help" then p.stopWith rule.help
    else match version? with
      | some version =>
        if name = "version" then p.stopWith version
        else misused (.unknownArgument ("--" ++ name))
      | none => misused (.unknownArgument ("--" ++ name))
  | none, some value, _ => misused (.unexpectedValue ("--" ++ name) value)

/-- Takes an argument that begins with one dash. -/
def takeShort (rule : CommandRule σ) (p : Progress) (letter : Char) : Reading Progress :=
  if letter = 'h' then p.stopWith rule.help
  else match rule.version with
    | some version =>
      if letter = 'V' then p.stopWith version
      else misused (.unknownArgument (String.ofList ['-', letter]))
    | none => misused (.unknownArgument (String.ofList ['-', letter]))

/-- Takes an argument that names no subcommand and is not `--`. -/
def take (rule : CommandRule σ) (p : Progress) (argument : String) : Reading Progress :=
  if p.onlyPositionals then p.takeValue argument
  else match longName? argument, shortLetter? argument with
    | some (name, attached), _ => rule.takeLong p name attached
    | none, some letter => rule.takeShort p letter
    | none, none => if p.isWaiting then .ok (p.fill argument) else p.takeValue argument

/-- The subcommand that an argument names, where one may stand. -/
def subcommand? (rule : CommandRule σ) (p : Progress) (argument : String) : Option σ :=
  if p.onlyPositionals || p.isWaiting then none else rule.subcommands.lookup argument

/-- Reads arguments up to a subcommand, which comes with the rest. -/
def read (rule : CommandRule σ) (p : Progress) :
    List String → Reading (Progress × Option (σ × List String))
  | [] => .ok (p, none)
  | argument :: rest =>
    match rule.subcommand? p argument with
    | some sub => .ok (p, some (sub, rest))
    | none =>
      if argument = "--" ∧ p.onlyPositionals = false then
        read rule { p with onlyPositionals := true } rest
      else do read rule (← rule.take p argument) rest

end CommandRule

end FormCompiler.CommandLine
