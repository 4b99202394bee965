import FormCompiler.CommandLine.Invocation
import FormCompiler.Compile
import FormCompiler.FileTree
import FormCompiler.Json.Reader
import FormCompiler.Presentation.Schema

/-!
# FormCompiler.CommandLine.Run

Running a command.  A run reads files through a function and ends with a
report, which is an exit code with what goes to the two outputs, or with a
file to be written first.

* The manner of the invocation decides how results are told.  It decides
  neither the exit code nor the text of a form.
* The exit code is 0 when the form was handed out or the presentation is
  valid, 1 when it was not, and 2 when the arguments make no sense.
-/

namespace FormCompiler.CommandLine

/-! ## outcomes -/

/-- What a run leaves behind. -/
structure Report where
  code : Nat
  stdout : String
  stderr : String
deriving DecidableEq, Repr

/-- How a run ends. -/
inductive Outcome where
  | finish (report : Report)
  /-- Writes a file; what is reported depends on whether that succeeds. -/
  | write (path text : String) (report : Except FileFault Unit → Report)

/-- Reads the bytes of a file. -/
abbrev ReadFile := String → Except FileFault ByteArray

namespace Report

def success (stdout : String) : Report := ⟨0, stdout, ""⟩

def failure (stderr : String) : Report := ⟨1, "", stderr⟩

/-- Nothing was run, because the arguments make no sense. -/
def misuse (error : UsageError) : Report :=
  ⟨2, "", "error: " ++ error.message ++ "\n\nFor more information, try '--help'.\n"⟩

end Report

/-! ## messages -/

/-- A line, its end included. -/
def line (text : String) : String := text ++ "\n"

namespace Manner

/-- A failure with a message, on which a quiet run is silent. -/
def failure (manner : Manner) (message : String) : Report :=
  .failure <|
    if manner.isQuiet then ""
    else match manner.output with
      | .text => line message
      | .json => line (Json.object [("error", .string message)]).compact

/-- A success with a message, on which a quiet run is silent. -/
def success (manner : Manner) (text : String) (json : String) : Report :=
  .success <|
    if manner.isQuiet then ""
    else match manner.output with
      | .text => line text
      | .json => line json

/-- The report of a compile error; as JSON it is told even by a quiet run. -/
def compileFailure (manner : Manner) (error : CompileError) : Report :=
  .failure <|
    match manner.output with
    | .json => line error.toJson.pretty
    | .text => if manner.isQuiet then "" else line ("error: " ++ error.message)

/-- The report of violations; as JSON it is told even by a quiet run. -/
def violationFailure (manner : Manner) (violations : List Violation) : Report :=
  .failure <|
    match manner.output with
    | .json =>
      line (Json.object [("valid", .boolean false),
        ("errors", .array (violations.map fun v => .string v.message))]).pretty
    | .text =>
      if manner.isQuiet then ""
      else String.join
        (line "invalid presentation" :: violations.map fun v => line ("  - " ++ v.message))

end Manner

/-! ## files -/

/-- Reads a JSON file, or says why it cannot be read. -/
def readJson (read : ReadFile) (path : String) : Except String Json :=
  match (read path).bind decodeText with
  | .error fault => .error ("error reading file '" ++ path ++ "': " ++ fault.message)
  | .ok text =>
    match Json.read text with
    | .error error => .error ("error parsing JSON in '" ++ path ++ "': " ++ error.message)
    | .ok value => .ok value

/-! ## commands -/

namespace CompileArguments

/-- The instant that date expressions refer to. -/
def instant (arguments : CompileArguments) (now : Timestamp) : Except String Timestamp :=
  match arguments.referenceTime with
  | none => .ok now
  | some raw =>
    (Timestamp.parse raw.toList).mapError fun error =>
      "invalid --reference-time '" ++ raw ++ "': " ++ error.message

/-- The documents and the options of a compilation. -/
def load (arguments : CompileArguments) (read : ReadFile) (now : Timestamp) :
    Except String (CompileDocuments × CompileOptions) := do
  let instant ← arguments.instant now
  let bundle ← readJson read arguments.bundle
  let dependencies ← arguments.dependencies.mapM (readJson read)
  let presentation ← readJson read arguments.presentation
  let conditionals ← match arguments.conditionals with
    | none => .ok .null
    | some path => readJson read path
  return (⟨bundle, dependencies, presentation, conditionals, arguments.readonly⟩, ⟨instant⟩)

/-- The text of a compiled form.  If it cannot be written, the text says
why. -/
def formText (compiled : CompiledForm) : String :=
  match compiled.toJson with
  | .ok json => json.pretty
  | .error error => "serialization error: " ++ error.message

/-- Hands out the text of a form: to the output, or into a file. -/
def handOut (arguments : CompileArguments) (manner : Manner) (text : String) : Outcome :=
  match arguments.out with
  | none => .finish (.success (line text))
  | some path => .write path (line text) fun
    | .ok () =>
      manner.success ("wrote " ++ path) (Json.object [("written", .string path)]).compact
    | .error fault => manner.failure ("error writing file '" ++ path ++ "': " ++ fault.message)

/-- Runs `compile`. -/
def run (arguments : CompileArguments) (manner : Manner) (read : ReadFile) (now : Timestamp) :
    Outcome :=
  match arguments.load read now with
  | .error message => .finish (manner.failure message)
  | .ok (documents, options) =>
    match documents.compile options with
    | .error error => .finish (manner.compileFailure error)
    | .ok compiled => arguments.handOut manner (formText compiled)

end CompileArguments

def runValidate (path : String) (manner : Manner) (read : ReadFile) : Report :=
  match readJson read path with
  | .error message => manner.failure message
  | .ok value =>
    match presentationSchema.violations value with
    | [] => manner.success "valid" "\x7b\"valid\": true\x7d"
    | violations => manner.violationFailure violations

def Invocation.run (invocation : Invocation) (read : ReadFile) (now : Timestamp) : Outcome :=
  match invocation.command with
  | .compile arguments => arguments.run invocation.manner read now
  | .validate path => .finish (runValidate path invocation.manner read)

/-- What is reported when no command is run. -/
def Stop.report : Stop → Report
  | usage error => .misuse error
  | print text => .success text

/-- Runs the program with arguments. -/
def run (arguments : List String) (read : ReadFile) (now : Timestamp) : Outcome :=
  match Invocation.ofArguments arguments with
  | .error stop => .finish stop.report
  | .ok invocation => invocation.run read now

/-! ## running over a directory -/

/-- Ends a run over a directory: the report, and the files after it. -/
def Outcome.conclude (outcome : Outcome) (tree : FileTree) : Report × FileTree :=
  match outcome with
  | .finish report => (report, tree)
  | .write path text report =>
    match tree.write path text.toUTF8 with
    | .ok written => (report (.ok ()), written)
    | .error fault => (report (.error fault), tree)

/-- Runs the program in a directory. -/
def runIn (tree : FileTree) (arguments : List String) (now : Timestamp) : Report × FileTree :=
  (run arguments tree.read now).conclude tree

end FormCompiler.CommandLine
