import FormCompiler.Dictionary
import FormCompiler.Json.Basic

/-!
# FormCompiler.Presentation

Presentations: the pages of a form, the hints for capturing attributes, and
the titles of pages.  A page lists attribute names and nested pages; each
page is named through one of three keys, which decides what it stands for.
Hints whose shape depends on the widget stay JSON values.
-/

namespace FormCompiler

/-! ## pages -/

mutual

/-- A page or nested section and its entries. -/
structure PageSpec where
  /-- A name by the outdated key, which acts like `reference`. -/
  name : Option String
  /-- The reference attribute that the section embeds. -/
  reference : Option String
  /-- The name of a section without attribute of its own. -/
  synthetic : Option String
  entries : List PageEntry

/-- An entry of a page. -/
inductive PageEntry where
  /-- The attribute of this name. -/
  | field (name : String)
  | page (spec : PageSpec)

end

instance : Inhabited PageSpec := ⟨⟨none, none, none, []⟩⟩

/-! ## hints -/

/-- The hints for capturing one attribute. -/
structure Hints where
  /-- The tag of the widget. -/
  widget : Option String
  /-- The orientation of radio buttons, or what each answer of a question
  asks for in addition. -/
  options : Option Json
  variant : Option String
  range : Option Json
  step : Option Json
  /-- The fields that a signature fills. -/
  bindings : Option Json
  /-- The attribute that holds the answer of a question. -/
  answer : Option String
  /-- Whether the items of a list carry an identifier. -/
  id : Option Json
  idFormat : Option Json
  onItemRemove : Option Json

def Hints.none : Hints :=
  ⟨.none, .none, .none, .none, .none, .none, .none, .none, .none, .none⟩

instance : Inhabited Hints := ⟨Hints.none⟩

/-- The hints for one medium and context, by dotted path. -/
structure Interaction where
  medium : String
  context : String
  hints : Dictionary Hints

/-! ## presentations -/

/-- The presentation of a bundle. -/
structure Presentation where
  /-- The bundle that is presented. -/
  bundleDigest : String
  digest : Option String
  languages : List String
  pages : List PageSpec
  /-- The names of the pages of the form, in order. -/
  pageOrder : List String
  /-- Page titles by language and page name. -/
  pageLabels : Dictionary (Dictionary String)
  interactions : List Interaction

namespace Presentation

/-- The medium whose hints are used. -/
def captureMedium : String := "web"

/-- The context whose hints are used. -/
def captureContext : String := "capture"

/-- The first interaction for capturing on the web. -/
def captureInteraction? (p : Presentation) : Option Interaction :=
  p.interactions.find? fun i => i.medium = captureMedium && i.context = captureContext

/-- The first page that any of its keys names so. -/
def findPage? (p : Presentation) (name : String) : Option PageSpec :=
  p.pages.find? fun spec =>
    spec.name = some name || spec.synthetic = some name || spec.reference = some name

/-- The title of a page in a language. -/
def pageLabel? (p : Presentation) (lang page : String) : Option String :=
  (p.pageLabels.find? lang).bind (·.find? page)

end Presentation

end FormCompiler
