import FormCompiler.Bundle
import FormCompiler.DocumentError

/-!
# FormCompiler.Bundle.Reader

Reading bundle documents.  A document needs a text `digest` and a list
`attributes`; an attribute needs a text `name`, a `type`, and `entry_codes`
of a known kind where it has any.  Everything else is read as far as it
makes sense: a member of another kind counts as absent, and what is not
text inside a list or an object is skipped.
-/

namespace FormCompiler

/-- Reading a document, or its first error. -/
abbrev DocumentResult (α : Type) := Except DocumentError α

namespace Bundle

/-! ## lenient members -/

def textItems (items : List Json) : List String := items.filterMap Json.asString?

/-- The fields of an object, or none. -/
def fieldsOf (value : Option Json) : List (String × Json) :=
  (value.bind Json.asObject?).getD []

/-- The fields of an object that hold text. -/
def textFields (fields : List (String × Json)) : List (String × String) :=
  fields.filterMap fun field => field.2.asString?.map fun text => (field.1, text)

/-- Texts per language; other members are skipped. -/
def localizedTexts (value : Option Json) : Localized String :=
  .ofList (textFields (fieldsOf value))

/-- The choice labels of each language. -/
def entryLabels (value : Json) : Option (Localized EntryLabels) :=
  value.asObject?.map fun langs =>
    .ofList (langs.map fun lang => (lang.1, .ofList (textFields (fieldsOf (some lang.2)))))

/-- The unit that stands first. -/
def firstUnit (value : Json) : Option Units := do
  let (system, unit) ← (← value.asObject?).head?
  return ⟨system, ← unit.asString?⟩

/-! ## attributes -/

def readType (name : String) (declaration : Option Json) : DocumentResult AttributeType :=
  match declaration with
  | none => .error (.badAttribute name .missingType)
  | some (.string raw) => .ok (.parse raw)
  | some (.array [.string inner]) => .ok (.array (.parse inner))
  | some (.array _) => .error (.badAttribute name .arrayTypeNotSingle)
  | some other => .error (.badAttribute name (.unsupportedType other))

def readEntryCodes (name : String) (value : Option Json) : DocumentResult (Option EntryCodes) :=
  match value with
  | none | some .null => .ok none
  | some (.array codes) => .ok (some (.flat (textItems codes)))
  | some (.object groups) =>
    .ok (some (.grouped (groups.map fun group => (group.1, textItems (group.2.asArray?.getD [])))))
  | some other => .error (.badAttribute name (.entryCodesKind other))

def readAttribute (value : Json) : DocumentResult Attribute :=
  match value.textMember? "name" with
  | none => .error .attributeWithoutName
  | some name => do
    let type ← readType name (value.get? "type")
    let entryCodes ← readEntryCodes name (value.get? "entry_codes")
    return {
      name, type, entryCodes
      conformance := value.textMember? "conformance"
      cardinality := value.textMember? "cardinality"
      format := value.textMember? "format"
      units := (value.get? "units").bind firstUnit
      entries := (value.get? "entries").bind entryLabels
      labels := localizedTexts (value.get? "labels")
      informations := localizedTexts (value.get? "informations") }

/-! ## bundles -/

/-- The display texts of each language. -/
def readTexts (value : Option Json) : Localized BundleTexts :=
  .ofList ((fieldsOf value).map fun lang =>
    (lang.1, ⟨lang.2.textMember? "name", lang.2.textMember? "description"⟩))

/-- Reads a bundle document. -/
def ofJson (doc : Json) : DocumentResult Bundle :=
  match doc.textMember? "digest" with
  | none => .error (.missingField "digest")
  | some digest =>
    match (doc.get? "attributes").bind Json.asArray? with
    | none => .error (.missingField "attributes")
    | some items => do
      let attributes ← items.mapM readAttribute
      return ⟨digest, attributes, readTexts (doc.get? "meta")⟩

end Bundle

end FormCompiler
