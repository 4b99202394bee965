import FormCompiler.Form
import FormCompiler.Presentation.Writer
import FormCompiler.Timestamp.Rfc3339

/-!
# FormCompiler.Form.Writer

Forms as JSON.  A descriptor is an object whose first member `type` is its
tag.  Absent properties are left out, while missing bounds are `null`.  The
only cause of failure is a date before the year zero, which has no text.
-/

namespace FormCompiler

/-- Why a compiled form cannot be written. -/
inductive WriteError where
  /-- A date lies before the year zero. -/
  | yearBeforeZero
deriving DecidableEq, Repr

def WriteError.message : WriteError → String
  | yearBeforeZero => "The year component cannot be formatted into the requested format."

/-- Writing a part of a form, or its first error. -/
abbrev Written (α : Type) := Except WriteError α

/-- A timestamp as RFC 3339 text. -/
def Timestamp.toJson (t : Timestamp) : Written Json :=
  match t.render? with
  | some text => .ok (.string (String.ofList text))
  | none => .error .yearBeforeZero

/-- The bound of a date, `null` where it could not be read. -/
def DateBound.toJson : DateBound → Written Json
  | none => .ok .null
  | some t => t.toJson

/-- A bound that may be missing. -/
def Cardinality.boundToJson (bound : Option Nat) : Json := .ofOption (bound.map Json.ofNat)

def ChoiceOption.toJson (o : ChoiceOption) : Json :=
  .object ([("name", .string o.code)] ++ Json.optionalField "label" (o.label.map .string))

/-- A choice or category as an object. -/
def ChoiceVariant.toJson (v : ChoiceVariant) : Json :=
  .object ([("name", .string v.code)] ++ Json.optionalField "label" (v.label.map .string) ++
    Json.optionalField "options" (v.options.map fun os => .array (os.map ChoiceOption.toJson)))

/-- The fields that receive a place, as an object. -/
def GeolocationFields.toJson (g : GeolocationFields) : Json :=
  .object [("latitudeFieldName", .ofText? g.latitude), ("longitudeFieldName", .ofText? g.longitude),
    ("accuracyFieldName", .ofText? g.accuracy)]

def SignatureFields.members (s : SignatureFields) : List (String × Json) :=
  Json.optionalField "canvasFieldName" (s.canvas.map .string) ++
    Json.optionalField "timestampFieldName" (s.timestamp.map .string) ++
    Json.optionalField "geolocationFieldsName" (s.geolocation.map GeolocationFields.toJson)

def NumberFormat.members (n : NumberFormat) : List (String × Json) :=
  Json.optionalField "unitSystem" (n.unitSystem.map .string) ++
    Json.optionalField "unit" (n.unit.map .string) ++ Json.optionalField "range" n.range ++
    Json.optionalField "step" n.step

/-- The range of a date field, left out when there is none. -/
def dateRangeMembers : Option (DateBound × DateBound) → Written (List (String × Json))
  | none => .ok []
  | some (start, stop) => do
    return [("range", .array [← start.toJson, ← stop.toJson])]

/-! ## nodes -/

mutual

def Descriptor.toJson : Descriptor → Written Json
  | .choice display variants =>
    .ok (.object [("type", .string "choice"),
      ("display", .object [("type", .string display.tag)]),
      ("variants", .array (variants.map ChoiceVariant.toJson))])
  | .array cardinality element => do
    let element ← element.toJson
    .ok (.object [("type", .string "array"),
      ("minLength", Cardinality.boundToJson cardinality.least),
      ("maxLength", Cardinality.boundToJson cardinality.most), ("elementField", element)])
  | .multifile cardinality =>
    .ok (.object [("type", .string "multifile"), ("accept", .null), ("maxSize", .null),
      ("minFiles", Cardinality.boundToJson cardinality.least),
      ("maxFiles", Cardinality.boundToJson cardinality.most)])
  | .list cardinality elements => do
    let elements ← Node.listToJson elements
    .ok (.object [("type", .string "list"),
      ("minLength", Cardinality.boundToJson cardinality.least),
      ("maxLength", Cardinality.boundToJson cardinality.most),
      ("elementFields", .array elements)])
  | .text multiline pattern =>
    .ok (.object ([("type", .string "text"), ("multiline", .boolean multiline)] ++
      Json.optionalField "pattern" (pattern.map .string)))
  | .codeScanner pattern =>
    .ok (.object ([("type", .string "code_scanner")] ++
      Json.optionalField "pattern" (pattern.map .string)))
  | .file => .ok (.object [("type", .string "file"), ("accept", .null), ("maxSize", .null)])
  | .signature fields => .ok (.object ([("type", .string "signature")] ++ fields.members))
  | .number format => .ok (.object ([("type", .string "number")] ++ format.members))
  | .checkbox => .ok (.object [("type", .string "checkbox")])
  | .date kind format range => do
    let range ← dateRangeMembers range
    .ok (.object ([("type", .string kind.tag), ("format", .ofText? format)] ++ range))
  | .question answer extras => do
    let answer ← FieldEntry.optionalMember "answer" answer
    let extras ← PageNode.optionalMember "additionalFields" extras
    .ok (.object ([("type", .string "question")] ++ answer ++ extras))
  | .hidden format onItemRemove =>
    .ok (.object ([("type", .string "hidden"), ("format", .string format.tag)] ++
      Json.optionalField "onItemRemove" onItemRemove))

def FieldEntry.toJson : FieldEntry → Written Json
  | ⟨name, label, isOptional, isReadonly, condition, descriptor⟩ => do
    let field ← descriptor.toJson
    .ok (.object ([("name", .string name)] ++ Json.optionalField "label" (label.map .string) ++
      [("optional", .boolean isOptional), ("readonly", .boolean isReadonly)] ++
      Json.optionalField "condition" condition ++ [("field", field)]))

def PageNode.toJson : PageNode → Written Json
  | ⟨kind, name, title, condition, fields⟩ => do
    let fields ← Node.listToJson fields
    .ok (.object ([("type", .string kind.tag), ("name", .string name), ("title", .string title)] ++
      Json.optionalField "condition" condition ++ [("fields", .array fields)]))

def Node.toJson : Node → Written Json
  | .field entry => entry.toJson
  | .page page => page.toJson

def Node.listToJson : List Node → Written (List Json)
  | [] => .ok []
  | node :: nodes => do
    let node ← node.toJson
    let nodes ← Node.listToJson nodes
    .ok (node :: nodes)

/-- A field entry as a member that may be left out. -/
def FieldEntry.optionalMember (key : String) : Option FieldEntry → Written (List (String × Json))
  | none => .ok []
  | some entry => do
    let entry ← entry.toJson
    .ok [(key, entry)]

/-- A page as a member that may be left out. -/
def PageNode.optionalMember (key : String) : Option PageNode → Written (List (String × Json))
  | none => .ok []
  | some page => do
    let page ← page.toJson
    .ok [(key, page)]

end

def Form.toJson (form : Form) : Written Json := do
  return .object [("pages", .array (← form.pages.mapM PageNode.toJson))]

end FormCompiler
