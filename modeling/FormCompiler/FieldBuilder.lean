import FormCompiler.Bundle
import FormCompiler.CompileError
import FormCompiler.DateExpression
import FormCompiler.Form
import FormCompiler.Notice
import FormCompiler.Widget

/-!
# FormCompiler.FieldBuilder

From an attribute and the properties of its widget to one descriptor:

1. an attribute with an entry set is a choice, whatever its type;
2. an array is a choice of several files when it holds binaries in a file
   widget, and otherwise an array of what its element would be;
3. every other attribute goes by its base type and widget.

Dates need a date widget, binaries a file or signature widget, references a
signature or question widget; without one they have no descriptor.
-/

namespace FormCompiler

/-! ## choices -/

/-- The display that a widget asks for. -/
def WidgetProperties.display? (props : WidgetProperties) : Option ChoiceDisplay :=
  match props.widget with
  | some .radio =>
    if props.orientation = some "horizontal" then some .radioHorizontal
    else if props.orientation = some "vertical" then some .radioVertical
    else none
  | some .select => if props.variant = some "multiple" then some .selectMultiple else none
  | _ => none

/-- The choices of an attribute, labelled in the language declared first. -/
def Attribute.variants (attr : Attribute) (entries : Localized EntryLabels) : List ChoiceVariant :=
  let label (code : String) : Option String := entries.first?.bind (·.find? code)
  match attr.entryCodes with
  | none => []
  | some (.flat codes) => codes.map fun code => ⟨code, label code, none⟩
  | some (.grouped groups) =>
    groups.map fun group =>
      ⟨group.1, label group.1, some (group.2.map fun code => ⟨code, label code⟩)⟩

/-! ## numbers, dates and signatures -/

/-- The unit of an attribute, and its limits under a number widget. -/
def Attribute.numberFormat (attr : Attribute) (props : WidgetProperties) : NumberFormat where
  unitSystem := attr.units.map (·.system)
  unit := attr.units.map (·.unit)
  range := if props.uses .number then props.range else none
  step := if props.uses .number then props.step else none

/-- The two expressions of a date range. -/
def WidgetProperties.dateRange? (props : WidgetProperties) : Option (Json × Json) :=
  match props.range with
  | some (.array [start, stop]) => some (start, stop)
  | _ => none

/-- The instant of a bound. -/
def dateBound (expression : Json) (now : Timestamp) : DateBound :=
  expression.asString?.bind (DateExpression.resolve? · now)

def Attribute.dateField (attr : Attribute) (props : WidgetProperties) (now : Timestamp)
    (kind : DateKind) : Descriptor :=
  .date kind attr.format
    (props.dateRange?.map fun range => (dateBound range.1 now, dateBound range.2 now))

/-- The kind of date that a widget captures. -/
def Widget.dateKind? : Widget → Option DateKind
  | date => some .date
  | time => some .time
  | dateTime => some .dateTime
  | _ => none

/-- The fields that a signature fills. -/
def WidgetProperties.signatureFields (props : WidgetProperties) : SignatureFields :=
  match props.signature with
  | none => .none
  | some b => ⟨b.canvas, b.timestamp, some ⟨b.latitude, b.longitude, b.accuracy⟩⟩

/-! ## descriptors -/

/-- The descriptor of an attribute by its base type and widget, regardless
of entries and arrays. -/
def Attribute.scalarDescriptor (attr : Attribute) (props : WidgetProperties) (now : Timestamp) :
    Except CompileError Descriptor :=
  match attr.type.base, props.widget with
  | .primitive .text, some .textarea => .ok (.text true attr.format)
  | .primitive .text, some .codeScanner => .ok (.codeScanner attr.format)
  | .primitive .text, _ => .ok (.text false attr.format)
  | .primitive .numeric, _ => .ok (.number (attr.numberFormat props))
  | .primitive .boolean, _ => .ok .checkbox
  | .primitive .binary, some .file => .ok .file
  | .primitive .binary, some .signature => .ok (.signature .none)
  | .primitive .dateTime, some .date => .ok (attr.dateField props now .date)
  | .primitive .dateTime, some .time => .ok (attr.dateField props now .time)
  | .primitive .dateTime, some .dateTime => .ok (attr.dateField props now .dateTime)
  | .reference _, some .signature => .ok (.signature props.signatureFields)
  | .reference _, some .question => .ok (.question none none)
  | _, _ => .error (.unsupportedType attr.name attr.type)

/-- The descriptor of an attribute. -/
def Attribute.descriptor (attr : Attribute) (props : WidgetProperties) (now : Timestamp) :
    Except CompileError Descriptor :=
  -- An entry set decides, whatever the type is, and also for an array.
  match attr.entries with
  | some entries =>
    .ok (.choice (props.display?.getD .select) (attr.variants entries))
  | none =>
    if attr.type.isArray then
      let cardinality := Cardinality.parse? attr.cardinality
      if attr.type.base = .primitive .binary ∧ props.uses .file then .ok (.multifile cardinality)
      else do
        let element ← { attr with type := attr.type.element }.scalarDescriptor props now
        .ok (.array cardinality element)
    else attr.scalarDescriptor props now

/-- The bounds of an attribute's date range that cannot be read. -/
def Attribute.unreadableBounds (attr : Attribute) (props : WidgetProperties) (now : Timestamp) :
    List Notice :=
  if attr.entries.isNone ∧ attr.type.base = .primitive .dateTime ∧
      (props.widget.bind Widget.dateKind?).isSome then
    match props.dateRange? with
    | none => []
    | some (start, stop) =>
      ([start, stop].filter fun bound => (dateBound bound now).isNone).map
        (Notice.unreadableBound attr.name)
  else []

end FormCompiler
