import FormCompiler.Json.Printer

/-!
# FormCompiler.Notice

What a compilation tells about its course, beside its result.  A notice has
a level, a message and named values, which are texts or numbers.
-/

namespace FormCompiler

/-- How much a notice matters. -/
inductive NoticeLevel where
  | error
  | warning
  | debug
deriving DecidableEq, Repr

def NoticeLevel.label : NoticeLevel → String
  | error => "ERROR"
  | warning => "WARN"
  | debug => "DEBUG"

inductive Notice where
  /-- All references are resolved. -/
  | referencesResolved (references bundles : Nat)
  /-- The page order names a page that there is not. -/
  | pageMissing (page : String)
  /-- A language has no page titles at all. -/
  | titlesMissing (lang presentation : String)
  /-- A page has no title in a language. -/
  | titleMissing (page lang : String)
  /-- A page is named by an outdated key. -/
  | outdatedAddress (page : String)
  /-- An attribute has no label in any language. -/
  | unlabelled (name : String)
  /-- An attribute has no label in a language. -/
  | labelMissing (name lang : String)
  /-- The bound of a date cannot be read. -/
  | unreadableBound (name : String) (bound : Json)
  /-- The form is compiled. -/
  | formCompiled (bundle : String) (pages languages : Nat)

namespace Notice

def level : Notice → NoticeLevel
  | referencesResolved _ _ | formCompiled _ _ _ => .debug
  | titlesMissing _ _ => .error
  | _ => .warning

def message : Notice → String
  | referencesResolved _ _ => "dependency references resolved"
  | pageMissing _ => "page listed in page order not found, skipping"
  | titlesMissing _ _ => "no presentation labels found for language"
  | titleMissing _ _ => "no page label"
  | outdatedAddress _ =>
    "[DEPRECATED] page attribute 'n' is deprecated, use 'nr' or 'ns' instead"
  | unlabelled _ => "no labels found for attribute"
  | labelMissing _ _ => "no label found for attribute in language"
  | unreadableBound _ _ => "unreadable date range bound"
  | formCompiled _ _ _ => "form compiled"

/-- The named values of a notice. -/
def fields : Notice → List (String × Json)
  | referencesResolved references bundles =>
    [("references", .ofNat references), ("bundles", .ofNat bundles)]
  | pageMissing page => [("page", .string page)]
  | titlesMissing lang presentation =>
    [("lang", .string lang), ("presentation", .string presentation)]
  | titleMissing page lang => [("page", .string page), ("lang", .string lang)]
  | outdatedAddress page => [("page", .string page)]
  | unlabelled name => [("attribute", .string name)]
  | labelMissing name lang => [("attribute", .string name), ("lang", .string lang)]
  | unreadableBound name bound =>
    [("attribute", .string name), ("bound", .string bound.compact)]
  | formCompiled bundle pages languages =>
    [("bundle", .string bundle), ("pages", .ofNat pages), ("languages", .ofNat languages)]

def toJson (notice : Notice) : Json :=
  .object [("level", .string notice.level.label), ("message", .string notice.message),
    ("fields", .object notice.fields)]

end Notice

end FormCompiler
