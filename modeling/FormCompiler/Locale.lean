import FormCompiler.Bundle
import FormCompiler.Path
import FormCompiler.Presentation.Writer

/-!
# FormCompiler.Locale

Locale dictionaries, one for each requested language.  The texts of an
attribute stand under `<path>.label`, `<path>.placeholder` and
`<path>.entries`, page titles under the key of the title, and the texts of
the bundle under `name` and `description`.  What is recorded for a language
that was not requested is dropped.
-/

namespace FormCompiler

/-! ## dictionaries -/

/-- What stands under a key of an attribute. -/
inductive LocaleText where
  | text (value : String)
  /-- Labels by code. -/
  | entries (labels : EntryLabels)
deriving DecidableEq

def LocaleText.asText? : LocaleText → Option String
  | text value => some value
  | entries _ => none

/-- The dictionaries of one language. -/
structure Locale where
  attributes : Dictionary LocaleText
  pages : Dictionary String
  bundle : Dictionary String
deriving DecidableEq

def Locale.empty : Locale := ⟨.empty, .empty, .empty⟩

/-- The dictionaries of every requested language. -/
structure Locales where
  byLanguage : Dictionary Locale
deriving DecidableEq

/-! ## recording -/

/-- Inserts a value that may be absent. -/
def Dictionary.insert? {α : Type} (d : Dictionary α) (key : String) : Option α → Dictionary α
  | none => d
  | some value => d.insert key value

namespace Locale

/-- Records the texts of an attribute in one language. -/
def recordAttribute (locale : Locale) (lang : String) (path : Path) (attr : Attribute) : Locale :=
  { locale with
    attributes :=
      ((locale.attributes.insert? (path.key "label") ((attr.labels.get? lang).map .text)).insert?
        (path.key "placeholder") ((attr.informations.get? lang).map .text)).insert?
        (path.key "entries") ((attr.entries.bind (·.get? lang)).map .entries) }

def recordTitle (locale : Locale) (key title : String) : Locale :=
  { locale with pages := locale.pages.insert key title }

/-- What is shown for a bundle without a name. -/
def missingName : String := "—"

/-- Records the texts of a bundle in one language. -/
def recordBundle (locale : Locale) (lang : String) (bundle : Bundle) : Locale :=
  let texts := bundle.texts.get? lang
  { locale with
    bundle := (locale.bundle.insert "name" ((texts.bind (·.name)).getD missingName)).insert?
      "description" (texts.bind (·.description)) }

end Locale

namespace Locales

/-- Empty dictionaries for the requested languages. -/
def forLanguages (languages : List String) : Locales :=
  ⟨.ofList (languages.map fun lang => (lang, .empty))⟩

def find? (locales : Locales) (lang : String) : Option Locale := locales.byLanguage.find? lang

/-- Records the texts of an attribute in every language. -/
def recordAttribute (locales : Locales) (path : Path) (attr : Attribute) : Locales :=
  ⟨locales.byLanguage.mapWithKey fun lang locale => locale.recordAttribute lang path attr⟩

/-- Records the title of a page in one language. -/
def recordTitle (locales : Locales) (lang key title : String) : Locales :=
  ⟨locales.byLanguage.mapWithKey fun l locale =>
    if l = lang then locale.recordTitle key title else locale⟩

/-- Records the texts of a bundle in every language. -/
def recordBundle (locales : Locales) (bundle : Bundle) : Locales :=
  ⟨locales.byLanguage.mapWithKey fun lang locale => locale.recordBundle lang bundle⟩

end Locales

/-! ## writing -/

/-- A text or a set of labels as JSON. -/
def LocaleText.toJson : LocaleText → Json
  | text value => .string value
  | entries labels => Json.ofDictionary .string labels

/-- The dictionaries of a language as an object. -/
def Locale.toJson (locale : Locale) : Json :=
  .object [("a", Json.ofDictionary LocaleText.toJson locale.attributes),
    ("p", Json.ofDictionary .string locale.pages), ("m", Json.ofDictionary .string locale.bundle)]

/-- The dictionaries of all languages as an object. -/
def Locales.toJson (locales : Locales) : Json :=
  .object [("locales", Json.ofDictionary Locale.toJson locales.byLanguage)]

end FormCompiler
