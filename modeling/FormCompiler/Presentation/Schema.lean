import FormCompiler.Schema

/-!
# FormCompiler.Presentation.Schema

The schema of presentation documents.
-/

namespace FormCompiler

namespace PresentationSchema

open Schema

def text : Schema := .type [.string]

def nonEmptyText : Schema := .all [.type [.string], .minLength 1]

def anything : Schema := .all []

/-- An object whose members all hold to a schema. -/
def mapOf (schema : Schema) : Schema := .all [.type [.object], .additionalProperties [] schema]

/-- A list of items that hold to a schema. -/
def listOf (schema : Schema) : Schema := .all [.type [.array], .items schema]

/-- A page: one of the naming keys, but not `nr` along with `ns`, and
entries that are texts or pages. -/
def page : Schema := .all
  [ .type [.object],
    .required ["ao"],
    .properties
      [ ("n", text),
        ("nr", text),
        ("ns", text),
        ("ao", listOf (.oneOf [text, .ref "page"])) ],
    .anyOf [.required ["n"], .required ["nr"], .required ["ns"]],
    .not (.required ["nr", "ns"]) ]

def interaction : Schema := .all
  [ .type [.object],
    .required ["m", "c"],
    .properties
      [ ("m", text),
        ("c", text),
        ("a", mapOf (.ref "hints")) ] ]

def hints : Schema := .all
  [ .type [.object],
    .properties
      [ ("t", text),
        ("o", .type [.string, .object]),
        ("va", text),
        ("r", anything),
        ("s", .type [.number, .string]),
        ("m", .type [.object]),
        ("answer", text),
        ("id", anything),
        ("idt", .enum [.string "uuid", .string "bigint"]),
        ("on_item_remove", anything) ] ]

def presentation : Schema := .all
  [ .type [.object],
    .required ["bd", "p", "po"],
    .properties
      [ ("bd", nonEmptyText),
        ("d", text),
        ("l", .all [.type [.array], .uniqueItems, .items nonEmptyText]),
        ("p", listOf (.ref "page")),
        ("po", listOf text),
        ("pl", mapOf (mapOf text)),
        ("i", listOf (.ref "interaction")) ] ]

end PresentationSchema

/-- The schema of presentation documents. -/
def presentationSchema : SchemaDocument where
  root := PresentationSchema.presentation
  definitions :=
    [ ("page", PresentationSchema.page),
      ("interaction", PresentationSchema.interaction),
      ("hints", PresentationSchema.hints) ]

end FormCompiler
