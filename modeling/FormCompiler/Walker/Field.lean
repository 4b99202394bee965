import FormCompiler.FieldBuilder
import FormCompiler.Walker

/-!
# FormCompiler.Walker.Field

One attribute as a field entry, with its texts written into the journal.
The entry of a question holds the entry of its answer and those of the
fields that the answers open, taken from the bundle that the attribute
refers to and placed below the question.
-/

namespace FormCompiler

/-! ## yes and no -/

/-- The language of the labels of a yes-or-no choice. -/
def yesNoLanguage : String := "eng"

/-- The labels of a yes-or-no choice. -/
def yesNoEntries : Localized EntryLabels :=
  .ofList [(yesNoLanguage, .ofList [("true", "prefill.yes"), ("false", "prefill.no")])]

/-- Turns a boolean under radio buttons into a yes-or-no choice. -/
def Attribute.prefilled (attr : Attribute) (props : WidgetProperties) : Attribute :=
  if !attr.type.isArray ∧ attr.type.base = .primitive .boolean ∧ props.uses .radio then
    { attr with entries := some yesNoEntries, entryCodes := some (.flat ["true", "false"]) }
  else attr

/-- May the attribute be left out? -/
def Attribute.isOptional (attr : Attribute) : Bool :=
  FormCompiler.isOptional attr.conformance

namespace Walker

/-! ## questions -/

/-- The field that an answer opens, under the caller's condition for it or
else under the rule of the answer. -/
def followUpEntry (w : Walker) (build : Attribute → Walk FieldEntry) (dep : Bundle)
    (path answer : Path) (followUp : FollowUp) : Walk FieldEntry := do
  let attr ← findAttribute dep followUp.name
  let entry ← build attr
  if w.conditionals.contains (path.child entry.name).render then return entry
  else
    return { entry with condition := some (answerRule answer followUp.option followUp.effects) }

/-- The answer of the question at `path`, which is mandatory whenever the
question is, and the page of further fields.  Entries are built by `build`,
their attributes come from `dep`. -/
def questionParts (w : Walker) (build : Attribute → Walk FieldEntry) (dep : Bundle) (path : Path)
    (optional : Bool) (hints : Hints) : Walk (FieldEntry × Option PageNode) := do
  let attr ← findAttribute dep hints.answerName
  let answer ← build attr
  let extras ← hints.followUps.mapM (w.followUpEntry build dep path (path.child attr.name))
  -- Whatever the answer asks in turn has been built by now, and is left as it is.
  return ({ answer with isOptional := answer.isOptional && optional }, extrasPage path extras)

/-! ## fields -/

/-- The entry of an attribute below the path `above`. -/
def fieldEntry (w : Walker) (bundle : Bundle) (above : Path) (declared : Attribute) :
    Walk FieldEntry := do
  let path := above.child declared.name
  let props := WidgetProperties.ofHints? (w.hints? path)
  let attr := declared.prefilled props
  Walk.notify (attr.unreadableBounds props w.now)
  let plain ← Walk.ofExcept (attr.descriptor props w.now)
  let descriptor ←
    match _h : w.question? (above.child declared.name), attr.type.reference? with
    | some hints, some _ => do
      let dep ← w.dependency bundle attr.name
      let (answer, extras) ← w.questionParts
        (fun inner => w.fieldEntry dep (above.child declared.name) inner) dep path attr.isOptional
        hints
      pure (plain.attach answer extras)
    | _, _ => pure plain
  -- Texts are written last, behind those of the answer and the further fields.
  Walk.write (.attributeTexts path attr)
  return {
    name := attr.name
    label := some (path.key "label")
    isOptional := attr.isOptional
    isReadonly := w.isReadonly path
    condition := w.condition? path
    descriptor }
termination_by w.room (above.child declared.name)
decreasing_by exact room_child_lt (by simp [Path.isRoot]) _h _

end Walker

end FormCompiler
