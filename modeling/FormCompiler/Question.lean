import FormCompiler.Form
import FormCompiler.Path
import FormCompiler.Widget

/-!
# FormCompiler.Question

Questions: what their hints ask for, and where the answer and the further
fields are attached.  The hints map each answer to the fields that it opens;
such a field carries a rule that shows it when the answer is given, unless
the caller has a condition for it.
-/

namespace FormCompiler

/-! ## hints -/

/-- A field that an answer opens. -/
structure FollowUp where
  /-- The answer. -/
  option : String
  /-- The name of the attribute to ask for. -/
  name : String
  /-- What the rule does once the answer is given. -/
  effects : Json

/-- What a rule does where nothing else is declared. -/
def FollowUp.defaultEffects : Json := .array [.string "display"]

/-- Reads a declared field: a name, or an object with a name and effects. -/
def FollowUp.ofJson (option : String) : Json → FollowUp
  | .string name => ⟨option, name, defaultEffects⟩
  | other =>
    ⟨option, (other.textMember? "an").getD "", (other.get? "e").getD defaultEffects⟩

namespace Hints

/-- Do the hints ask for a question? -/
def isQuestion (hints : Hints) : Bool := (WidgetProperties.ofHints hints).uses .question

/-- Hints ask for a question by the widget of that name. -/
theorem isQuestion_iff {hints : Hints} :
    hints.isQuestion = true ↔ hints.widget = some "question" :=
  WidgetProperties.uses_ofHints_iff (by decide)

/-- The attribute that holds the answer. -/
def answerName (hints : Hints) : String := hints.answer.getD ""

/-- The fields that the answers open: the answers in document order, and
under each of them its fields in order. -/
def followUps (hints : Hints) : List FollowUp :=
  ((hints.options.bind Json.asObject?).getD []).flatMap fun option =>
    (option.2.asArray?.getD []).map (FollowUp.ofJson option.1)

end Hints

/-! ## rules -/

/-- The rule that applies effects when the answer at a path is `option`. -/
def answerRule (answer : Path) (option : String) (effects : Json) : Json :=
  let (fact, path) := answer.splitHead?.getD ("", "")
  .array [.object
    [("conditions", .object [("all", .array [.object
      [("fact", .string fact), ("path", .string path), ("operator", .string "equal"),
        ("value", .string option)]])]),
      ("effects", effects)]]

/-! ## attaching -/

/-- Gives a question, or the question that an array repeats, its answer and
the page of further fields. -/
def Descriptor.attach (answer : FieldEntry) (extras : Option PageNode) : Descriptor → Descriptor
  | .question _ _ => .question (some answer) extras
  | .array cardinality (.question _ _) => .array cardinality (.question (some answer) extras)
  | descriptor => descriptor

/-- The page of the further fields of a question, if there are any. -/
def extrasPage (path : Path) (extras : List FieldEntry) : Option PageNode :=
  if extras.isEmpty then none
  else some ⟨.struct, path.render, "", none, extras.map .field⟩

end FormCompiler
