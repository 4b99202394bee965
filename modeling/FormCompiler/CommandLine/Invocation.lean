import FormCompiler.CommandLine.Help
import FormCompiler.CommandLine.Syntax

/-!
# FormCompiler.CommandLine.Invocation

What the command line asks for: a command with its arguments, and how its
results are told.  `--output` and `--quiet` may stand before the command or
behind its name; behind the name they count more.
-/

namespace FormCompiler.CommandLine

/-! ## invocations -/

/-- How messages are written. -/
inductive OutputFormat where
  | text
  | json
deriving DecidableEq, Repr

/-- How results are told. -/
structure Manner where
  output : OutputFormat
  isQuiet : Bool
deriving DecidableEq, Repr

/-- The arguments of `compile`. -/
structure CompileArguments where
  bundle : String
  dependencies : List String
  presentation : String
  conditionals : Option String
  readonly : List String
  referenceTime : Option String
  /-- The file that takes the form, instead of the output. -/
  out : Option String
deriving DecidableEq, Repr

/-- A command. -/
inductive Command where
  | compile (arguments : CompileArguments)
  | validate (presentation : String)
deriving DecidableEq, Repr

/-- A command and the manner in which its results are told. -/
structure Invocation where
  manner : Manner
  command : Command
deriving DecidableEq, Repr

/-- The files that a command reads, in order. -/
def Command.inputs : Command → List String
  | compile a => [a.bundle] ++ a.dependencies ++ [a.presentation] ++ a.conditionals.toList
  | validate presentation => [presentation]

/-! ## rules -/

/-- The subcommands of the program. -/
inductive Subcommand where
  | compile
  | validate
  | help
deriving DecidableEq, Repr

/-- The options that every command has. -/
def commonOptions : List ArgumentRule :=
  [.single "output" (.oneOf ["text", "json"]), .flag "quiet"]

def programRule : CommandRule Subcommand where
  options := commonOptions
  positionals := []
  subcommands := [("compile", .compile), ("validate", .validate), ("help", .help)]
  help := Help.program
  version := some Help.version

def compileRule : CommandRule Subcommand where
  options := commonOptions ++
    [.repeated "dep" .path, .single "presentation" .path, .single "conditionals" .path,
      .repeated "readonly" .text, .single "reference-time" .text, .single "out" .path]
  positionals := [.single "BUNDLE" .path]
  subcommands := []
  help := Help.compile
  version := none

def validateRule : CommandRule Subcommand where
  options := commonOptions
  positionals := [.single "PRESENTATION" .path]
  subcommands := []
  help := Help.validate
  version := none

/-! ## reading -/

/-- The help that is asked for behind `help`. -/
def readHelp (names : List String) : Reading Invocation :=
  match names with
  | [] => .error (.print Help.program)
  | name :: rest =>
    match programRule.subcommands.lookup name, rest with
    | some .compile, [] => .error (.print Help.compile)
    | some .validate, [] => .error (.print Help.validate)
    | some .help, [] => .error (.print Help.help)
    | some _, extra :: _ => misused (.unknownSubcommand extra)
    | none, _ => misused (.unknownSubcommand name)

/-- All arguments of a command, the last one settled. -/
def readAll (rule : CommandRule Subcommand) (arguments : List String) : Reading Progress := do
  let (progress, _) ← rule.read rule.start arguments
  progress.settle

/-- The value of an argument that must be there. -/
def requireValue (p : Progress) (name : String) : Reading String :=
  match p.values name with
  | value :: _ => .ok value
  | [] => misused (.missingArgument name)

def readCompile (p : Progress) : Reading Command := do
  let bundle ← requireValue p "BUNDLE"
  let presentation ← requireValue p "presentation"
  return .compile {
    bundle, presentation
    dependencies := p.values "dep"
    conditionals := (p.values "conditionals").head?
    readonly := p.values "readonly"
    referenceTime := (p.values "reference-time").head?
    out := (p.values "out").head? }

def readValidate (p : Progress) : Reading Command := do
  return .validate (← requireValue p "PRESENTATION")

/-- The manner that a command's own options ask for, or else those before
the command. -/
def readManner (own before : Progress) : Manner where
  output := if (own.values "output" ++ before.values "output").head? = some "json" then .json
    else .text
  isQuiet := !(own.values "quiet" ++ before.values "quiet").isEmpty

/-- What the arguments of the program ask for.  Those before the command
are settled after those of the command. -/
def Invocation.ofArguments (arguments : List String) : Reading Invocation := do
  let (before, sub) ← programRule.read programRule.start arguments
  match sub with
  | none => do
    let _ ← before.settle
    misused .missingSubcommand
  | some (.help, names) => readHelp names
  | some (.compile, rest) => do
    let own ← readAll compileRule rest
    let command ← readCompile own
    return ⟨readManner own (← before.settle), command⟩
  | some (.validate, rest) => do
    let own ← readAll validateRule rest
    let command ← readValidate own
    return ⟨readManner own (← before.settle), command⟩

end FormCompiler.CommandLine
