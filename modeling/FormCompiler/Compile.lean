import FormCompiler.Bundle.Reader
import FormCompiler.Form.Writer
import FormCompiler.Presentation.Reader
import FormCompiler.Walker.Page

/-!
# FormCompiler.Compile

Compiling a bundle and its presentation into a form with its locale
dictionaries and list identifiers.  Compilation checks that the presentation
is of this bundle, resolves all references, walks over the pages in page
order, and writes down the texts of the bundle.  It stops at the first
error; the notices up to that point are kept.
-/

namespace FormCompiler

/-- What a compilation is asked for. -/
structure CompileRequest where
  bundle : Bundle
  /-- The loaded bundles. -/
  dependencies : List Bundle
  presentation : Presentation
  /-- Conditions by dotted path. -/
  conditionals : Dictionary Json
  /-- What is read-only, along with everything below it. -/
  readonly : List Path

/-- Settings that do not depend on the documents. -/
structure CompileOptions where
  /-- The instant that date expressions refer to. -/
  referenceTime : Timestamp := Timestamp.unixEpoch

instance : Inhabited CompileOptions := ⟨{}⟩

/-- A form with the tables that accompany it. -/
structure CompiledForm where
  form : Form
  locales : Locales
  identifiers : IdentifierTree

def CompiledForm.toJson (compiled : CompiledForm) : Written Json := do
  return .object [("form", ← compiled.form.toJson), ("i18n", compiled.locales.toJson),
    ("meta", compiled.identifiers.toJson)]

/-- How a compilation ended and what it told on the way. -/
structure Compilation where
  result : Except CompileError CompiledForm
  notices : List Notice

/-- A compilation that ended before it began. -/
def Compilation.refused (error : CompileError) : Compilation := ⟨.error error, []⟩

namespace CompileRequest

/-- The setting of the walk over the pages. -/
def walker (request : CompileRequest) (references : References) (options : CompileOptions) :
    Walker where
  presentation := request.presentation
  interaction := request.presentation.captureInteraction?
  registry := .ofList request.dependencies
  references
  conditionals := request.conditionals
  readonly := request.readonly
  now := options.referenceTime

def presentsBundle (request : CompileRequest) : Bool :=
  request.presentation.bundleDigest == request.bundle.digest

/-- The walk over the pages once the references are resolved. -/
def pagesWalk (request : CompileRequest) (references : References) (options : CompileOptions) :
    Walk Form := do
  let pages ← (request.walker references options).orderedPages request.bundle
    request.presentation.pageOrder
  Walk.write (.bundleTexts request.bundle)
  Walk.notify [.formCompiled request.bundle.digest pages.length
    request.presentation.languages.length]
  return ⟨pages⟩

/-- The whole course of a compilation. -/
def walk (request : CompileRequest) (options : CompileOptions) : Walk Form :=
  if request.presentsBundle then do
    -- Nothing is written down about a resolution that fails.
    let resolution := (Registry.ofList request.dependencies).resolution request.bundle
    match resolution.failure with
    | some error => Walk.fail error
    | none => do
      Walk.notify [.referencesResolved resolution.references.size resolution.entered.length]
      request.pagesWalk resolution.references options
  else Walk.fail (.bundleMismatch request.presentation.bundleDigest request.bundle.digest)

/-- Compiles and keeps the notices. -/
def compilation (request : CompileRequest) (options : CompileOptions) : Compilation :=
  let walk := request.walk options
  let tables := (SideTables.forLanguages request.presentation.languages).replay walk.journal
  ⟨walk.outcome.map fun form => ⟨form, tables.locales, tables.identifiers⟩, walk.journal.notices⟩

/-- Compiles a form. -/
def compile (request : CompileRequest) (options : CompileOptions) :
    Except CompileError CompiledForm :=
  (request.compilation options).result

end CompileRequest

/-! ## documents -/

/-- The documents of a compilation. -/
structure CompileDocuments where
  bundle : Json
  dependencies : List Json
  presentation : Json
  /-- An object of conditions, or `null`. -/
  conditionals : Json
  /-- Dotted paths. -/
  readonly : List String

/-- Conditions by dotted path; `null` stands for none. -/
def readConditionals : Json → DocumentResult (Dictionary Json)
  | .null => .ok .empty
  | .object rules => .ok (.ofList rules)
  | found => .error (.conditionsKind found)

namespace CompileDocuments

/-- Reads the documents: the bundle, the dependencies in order, the
presentation, the conditions. -/
def read (docs : CompileDocuments) : DocumentResult CompileRequest := do
  let bundle ← Bundle.ofJson docs.bundle
  let dependencies ← docs.dependencies.mapM Bundle.ofJson
  let presentation ← Presentation.ofJson docs.presentation
  let conditionals ← readConditionals docs.conditionals
  return ⟨bundle, dependencies, presentation, conditionals, docs.readonly.map Path.parse⟩

/-- Reads the documents, compiles them and keeps the notices. -/
def compilation (docs : CompileDocuments) (options : CompileOptions) : Compilation :=
  match docs.read with
  | .error error => .refused (.document error)
  | .ok request => request.compilation options

/-- Reads the documents and compiles them. -/
def compile (docs : CompileDocuments) (options : CompileOptions) :
    Except CompileError CompiledForm :=
  (docs.compilation options).result

end CompileDocuments

end FormCompiler
