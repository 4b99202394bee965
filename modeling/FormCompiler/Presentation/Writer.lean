import FormCompiler.Presentation

/-!
# FormCompiler.Presentation.Writer

Presentations as documents.  Members come in the order of the reader's
arrays; absent texts and hints are left out, all other members are written
even when they are empty.
-/

namespace FormCompiler

namespace Json

/-- A field that is left out when its value is absent. -/
def optionalField (key : String) (value : Option Json) : List (String × Json) :=
  match value with
  | none => []
  | some value => [(key, value)]

def ofTexts (texts : List String) : Json := .array (texts.map .string)

/-- A dictionary as an object, in key order. -/
def ofDictionary {α : Type} (f : α → Json) (d : Dictionary α) : Json :=
  .object (d.entries.map fun e => (e.1, f e.2))

end Json

namespace PageSpec

mutual

def toJson : PageSpec → Json
  | ⟨name, reference, synthetic, entries⟩ =>
    .object (Json.optionalField "n" (name.map .string) ++
      Json.optionalField "nr" (reference.map .string) ++
      Json.optionalField "ns" (synthetic.map .string) ++ [("ao", .array (entriesToJson entries))])

/-- An entry as a text or an object. -/
def entryToJson : PageEntry → Json
  | .field name => .string name
  | .page spec => toJson spec

def entriesToJson : List PageEntry → List Json
  | [] => []
  | entry :: entries => entryToJson entry :: entriesToJson entries

end

end PageSpec

def Hints.toJson (h : Hints) : Json :=
  .object (Json.optionalField "t" (h.widget.map .string) ++ Json.optionalField "o" h.options ++
    Json.optionalField "va" (h.variant.map .string) ++ Json.optionalField "r" h.range ++
    Json.optionalField "s" h.step ++ Json.optionalField "m" h.bindings ++
    Json.optionalField "answer" (h.answer.map .string) ++ Json.optionalField "id" h.id ++
    Json.optionalField "idt" h.idFormat ++ Json.optionalField "on_item_remove" h.onItemRemove)

def Interaction.toJson (i : Interaction) : Json :=
  .object [("m", .string i.medium), ("c", .string i.context),
    ("a", Json.ofDictionary Hints.toJson i.hints)]

/-- A presentation as a document. -/
def Presentation.toJson (p : Presentation) : Json :=
  .object ([("bd", .string p.bundleDigest)] ++ Json.optionalField "d" (p.digest.map .string) ++
    [("l", Json.ofTexts p.languages), ("p", .array (p.pages.map PageSpec.toJson)),
      ("po", Json.ofTexts p.pageOrder),
      ("pl", Json.ofDictionary (Json.ofDictionary .string) p.pageLabels),
      ("i", .array (p.interactions.map Interaction.toJson))])

end FormCompiler
