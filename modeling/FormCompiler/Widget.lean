import FormCompiler.Presentation

/-!
# FormCompiler.Widget

Capture widgets, and the hints that matter to each.  Numbers use a range
and a step, dates a range; radio buttons, selections and every other widget
use an orientation and a variant; a signature also names the fields that it
fills.
-/

namespace FormCompiler

/-- A capture widget. -/
inductive Widget where
  | radio
  | select
  | textarea
  | file
  | signature
  | date
  | time
  | dateTime
  | number
  | codeScanner
  | question
  | list
  /-- A tag that no other widget has. -/
  | other (tag : String)
deriving DecidableEq, Repr

namespace Widget

/-- The widgets with a tag of their own. -/
def known : List (String × Widget) :=
  [("radio", radio), ("select", select), ("textarea", textarea), ("file", file),
    ("signature", signature), ("date", date), ("time", time), ("datetime", dateTime),
    ("number", number), ("code_scanner", codeScanner), ("question", question), ("list", list)]

def ofTag (tag : String) : Widget := (known.lookup tag).getD (other tag)

/-- The tags tell the known widgets apart. -/
theorem ofTag_eq_iff {tag name : String} {widget : Widget} (hknown : (name, widget) ∈ known) :
    ofTag tag = widget ↔ tag = name := by
  constructor
  · intro h
    cases hlookup : known.lookup tag with
    | none =>
        obtain rfl : other tag = widget := by simpa [ofTag, hlookup] using h
        simp [known] at hknown
    | some found =>
        obtain rfl : found = widget := by simpa [ofTag, hlookup] using h
        have hdistinct : ∀ first ∈ known, ∀ second ∈ known,
            first.2 = second.2 → first = second := by decide
        exact congrArg Prod.fst (hdistinct _ (mem_of_lookup hlookup) _ hknown rfl)
  · rintro rfl
    have hfirst : ∀ entry ∈ known, ofTag entry.1 = entry.2 := by decide
    exact hfirst _ hknown

end Widget

/-- The fields that a signature fills. -/
structure SignatureBindings where
  canvas : Option String
  latitude : Option String
  longitude : Option String
  accuracy : Option String
  timestamp : Option String
deriving DecidableEq, Repr

/-- The bindings in a hint; members that are no text count as absent. -/
def SignatureBindings.ofJson (value : Json) : SignatureBindings :=
  let place := (value.get? "geolocation").getD .null
  ⟨value.textMember? "canvas", place.textMember? "latitude", place.textMember? "longitude",
    place.textMember? "accuracy", place.textMember? "timestamp"⟩

/-- The hints that matter to the hinted widget. -/
structure WidgetProperties where
  widget : Option Widget
  orientation : Option String
  variant : Option String
  /-- The bounds of a number, or two date expressions. -/
  range : Option Json
  step : Option Json
  signature : Option SignatureBindings

namespace WidgetProperties

/-- No widget and no property. -/
def empty : WidgetProperties := ⟨none, none, none, none, none, none⟩

def ofWidget (widget : Option Widget) : WidgetProperties := { empty with widget }

/-- The properties that hints give to a widget. -/
def ofHints (hints : Hints) : WidgetProperties :=
  let widget := hints.widget.map Widget.ofTag
  match widget with
  | some .number => { ofWidget widget with range := hints.range, step := hints.step }
  | some .date | some .time | some .dateTime => { ofWidget widget with range := hints.range }
  | _ =>
    { ofWidget widget with
      orientation := hints.options.bind Json.asString?
      variant := hints.variant
      signature :=
        if widget = some .signature then hints.bindings.map SignatureBindings.ofJson else none }

/-- The widget is named by its tag in the hints. -/
theorem widget_ofHints (hints : Hints) :
    (ofHints hints).widget = hints.widget.map Widget.ofTag := by
  unfold ofHints
  dsimp only
  split <;> rfl

/-- The properties under hints that may be absent. -/
def ofHints? (hints : Option Hints) : WidgetProperties := (hints.map ofHints).getD empty

def uses (props : WidgetProperties) (widget : Widget) : Bool := props.widget == some widget

/-- A known widget is used exactly if the hints name it. -/
theorem uses_ofHints_iff {hints : Hints} {name : String} {widget : Widget}
    (hknown : (name, widget) ∈ Widget.known) :
    (ofHints hints).uses widget = true ↔ hints.widget = some name := by
  simp [uses, widget_ofHints, Widget.ofTag_eq_iff hknown]

end WidgetProperties

end FormCompiler
