import FormCompiler.FieldBuilder
import FormCompiler.Question

/-!
# FormCompiler.Proofs.Observation

What an observer sees of a form.  Three kinds of marks on a form come from
the caller of a compilation and not from the documents: conditions,
read-only flags, and the bounds of date ranges, which move with the instant
that date expressions refer to.  An `Observer` looks at some of these kinds.
What it does not look at is blanked out (`Form.observed`); a range keeps its
two bounds, whose values are then unknown.

Looking commutes with the ways in which forms are put together
(`Descriptor.observed_attach`, `PageNode.observed_extrasPage`), and the
instant matters to nobody who does not look at bounds
(`Attribute.observed_descriptor`).
-/

namespace FormCompiler

/-- Which marks of the caller are looked at. -/
structure Observer where
  conditions : Bool
  readonly : Bool
  bounds : Bool

namespace Observer

def full : Observer := ⟨true, true, true⟩

def blind : Observer := ⟨false, false, false⟩

def condition? (see : Observer) (condition : Option Json) : Option Json :=
  if see.conditions then condition else none

def flag (see : Observer) (isReadonly : Bool) : Bool := see.readonly && isReadonly

/-- The value of a bound as it is seen. -/
def bound (see : Observer) (bound : DateBound) : DateBound := if see.bounds then bound else none

end Observer

/-! ## what is seen -/

mutual

/-- A page as it is seen. -/
def PageNode.observed (see : Observer) : PageNode → PageNode
  | ⟨kind, name, title, condition, fields⟩ =>
    ⟨kind, name, title, see.condition? condition, Node.observedAll see fields⟩

def Node.observed (see : Observer) : Node → Node
  | .field entry => .field (entry.observed see)
  | .page page => .page (page.observed see)

def Node.observedAll (see : Observer) : List Node → List Node
  | [] => []
  | node :: nodes => node.observed see :: Node.observedAll see nodes

def FieldEntry.observed (see : Observer) : FieldEntry → FieldEntry
  | ⟨name, label, isOptional, isReadonly, condition, descriptor⟩ =>
    ⟨name, label, isOptional, see.flag isReadonly, see.condition? condition,
      descriptor.observed see⟩

def Descriptor.observed (see : Observer) : Descriptor → Descriptor
  | .array cardinality element => .array cardinality (element.observed see)
  | .list cardinality elements => .list cardinality (Node.observedAll see elements)
  | .date kind format range =>
    .date kind format (range.map fun bounds => (see.bound bounds.1, see.bound bounds.2))
  | .question (some answer) (some extras) =>
    .question (some (answer.observed see)) (some (extras.observed see))
  | .question (some answer) none => .question (some (answer.observed see)) none
  | .question none (some extras) => .question none (some (extras.observed see))
  | descriptor => descriptor

end

def Form.observed (see : Observer) (form : Form) : Form :=
  ⟨form.pages.map (PageNode.observed see)⟩

section Parts

variable (see : Observer)

theorem Node.observedAll_eq_map (nodes : List Node) :
    Node.observedAll see nodes = nodes.map (Node.observed see) := by
  induction nodes with
  | nil => rw [Node.observedAll, List.map_nil]
  | cons node nodes ih => rw [Node.observedAll, ih, List.map_cons]

/-- On a page an observer may miss the condition, and marks within its fields.
-/
theorem PageNode.observed_eq (page : PageNode) :
    page.observed see = { page with
      condition := see.condition? page.condition
      fields := page.fields.map (Node.observed see) } := by
  cases page
  rw [PageNode.observed, Node.observedAll_eq_map]

/-- On an entry an observer may miss the read-only flag, the condition, and
marks within its descriptor. -/
theorem FieldEntry.observed_eq (entry : FieldEntry) :
    entry.observed see = { entry with
      isReadonly := see.flag entry.isReadonly
      condition := see.condition? entry.condition
      descriptor := entry.descriptor.observed see } := by
  cases entry
  rw [FieldEntry.observed]

@[simp] theorem FieldEntry.name_observed (entry : FieldEntry) :
    (entry.observed see).name = entry.name := by
  rw [FieldEntry.observed_eq]

@[simp] theorem FieldEntry.isOptional_observed (entry : FieldEntry) :
    (entry.observed see).isOptional = entry.isOptional := by
  rw [FieldEntry.observed_eq]

/-- Every observer sees whether an entry is optional. -/
theorem FieldEntry.observed_setOptional (entry : FieldEntry) (isOptional : Bool) :
    { entry with isOptional }.observed see = { entry.observed see with isOptional } := by
  rw [FieldEntry.observed_eq, FieldEntry.observed_eq]

theorem FieldEntry.observed_setCondition (entry : FieldEntry) (condition : Option Json) :
    { entry with condition }.observed see =
      { entry.observed see with condition := see.condition? condition } := by
  rw [FieldEntry.observed_eq, FieldEntry.observed_eq]

/-- Nobody who does not look at conditions sees one being set. -/
theorem FieldEntry.observed_setCondition_of_blind {see : Observer} (h : see.conditions = false)
    (entry : FieldEntry) (condition : Option Json) :
    { entry with condition }.observed see = entry.observed see := by
  rw [FieldEntry.observed_eq, FieldEntry.observed_eq]
  simp [Observer.condition?, h]

theorem Descriptor.observed_list (cardinality : Cardinality) (elements : List Node) :
    (Descriptor.list cardinality elements).observed see =
      .list cardinality (elements.map (Node.observed see)) := by
  rw [Descriptor.observed, Node.observedAll_eq_map]

theorem Descriptor.observed_question (answer : Option FieldEntry) (extras : Option PageNode) :
    (Descriptor.question answer extras).observed see =
      .question (answer.map (FieldEntry.observed see)) (extras.map (PageNode.observed see)) := by
  cases answer <;> cases extras <;> simp [Descriptor.observed]

/-- The page of further fields is seen as that of the fields as they are
seen. -/
theorem PageNode.observed_extrasPage (path : Path) (extras : List FieldEntry) :
    (extrasPage path extras).map (PageNode.observed see) =
      extrasPage path (extras.map (FieldEntry.observed see)) := by
  unfold extrasPage
  cases extras with
  | nil => rfl
  | cons extra extras =>
      simp [PageNode.observed_eq, Observer.condition?, Node.observed]

/-- Attaching an answer is seen as attaching the answer as it is seen. -/
theorem Descriptor.observed_attach (descriptor : Descriptor) (answer : FieldEntry)
    (extras : Option PageNode) :
    (descriptor.attach answer extras).observed see =
      (descriptor.observed see).attach (answer.observed see)
        (extras.map (PageNode.observed see)) := by
  cases descriptor with
  | question answer' extras' => simp [attach, observed_question]
  | array cardinality element =>
      cases element with
      | question answer' extras' => simp [attach, observed, observed_question]
      | _ => simp [attach, observed]
  | _ => simp [attach, observed]

end Parts

/-! ## looking at everything -/

mutual

/-- Who looks at everything sees a page as it is. -/
theorem PageNode.observed_full : (page : PageNode) → page.observed .full = page
  | ⟨_, _, _, _, fields⟩ => by
      rw [PageNode.observed, Node.observedAll_full fields]
      rfl

theorem Node.observed_full : (node : Node) → node.observed .full = node
  | .field entry => by rw [Node.observed, entry.observed_full]
  | .page page => by rw [Node.observed, page.observed_full]

theorem Node.observedAll_full : (nodes : List Node) → Node.observedAll .full nodes = nodes
  | [] => by rw [Node.observedAll]
  | node :: nodes => by rw [Node.observedAll, node.observed_full, Node.observedAll_full nodes]

/-- Who looks at everything sees an entry as it is. -/
theorem FieldEntry.observed_full : (entry : FieldEntry) → entry.observed .full = entry
  | ⟨_, _, _, _, _, descriptor⟩ => by
      rw [FieldEntry.observed, descriptor.observed_full]
      rfl

/-- Who looks at everything sees a descriptor as it is. -/
theorem Descriptor.observed_full : (descriptor : Descriptor) →
    descriptor.observed .full = descriptor
  | .array _ element => by rw [Descriptor.observed, element.observed_full]
  | .list _ elements => by rw [Descriptor.observed, Node.observedAll_full elements]
  | .date kind format range => by
      rw [Descriptor.observed]
      cases range <;> rfl
  | .question (some answer) (some extras) => by
      rw [Descriptor.observed, answer.observed_full, extras.observed_full]
  | .question (some answer) none => by rw [Descriptor.observed, answer.observed_full]
  | .question none (some extras) => by rw [Descriptor.observed, extras.observed_full]
  | .question none none | .choice _ _ | .multifile _ | .text _ _ | .codeScanner _ | .file
  | .signature _ | .number _ | .checkbox | .hidden _ _ => by simp [Descriptor.observed]

end

/-- Nothing of a form is hidden from the one who looks at all marks. -/
theorem Form.observed_full (form : Form) : form.observed .full = form := by
  have hpages : PageNode.observed .full = id := funext PageNode.observed_full
  rw [Form.observed, hpages, List.map_id]

/-! ## the instant of date expressions -/

namespace Attribute

variable {see : Observer} {now now' : Timestamp} (attr : Attribute) (props : WidgetProperties)

/-- The instant only shows in the bounds of a date. -/
theorem observed_dateField (hnow : see.bounds = true → now = now') (kind : DateKind) :
    (attr.dateField props now kind).observed see =
      (attr.dateField props now' kind).observed see := by
  cases hbounds : see.bounds with
  | true => rw [hnow hbounds]
  | false =>
      cases hrange : props.dateRange? <;>
        simp [dateField, Descriptor.observed, Observer.bound, hbounds, hrange]

/-- Only a date under a date widget depends on the instant. -/
theorem scalarDescriptor_instant :
    (∃ kind, ∀ now, attr.scalarDescriptor props now = .ok (attr.dateField props now kind)) ∨
      ∃ result, ∀ now, attr.scalarDescriptor props now = result := by
  unfold scalarDescriptor
  rcases attr.type.base with kind | digest | raw
  · cases kind with
    | dateTime =>
        rcases props.widget with _ | widget
        · exact .inr ⟨_, fun now => rfl⟩
        · cases widget with
          | date => exact .inl ⟨.date, fun now => rfl⟩
          | time => exact .inl ⟨.time, fun now => rfl⟩
          | dateTime => exact .inl ⟨.dateTime, fun now => rfl⟩
          | _ => exact .inr ⟨_, fun now => rfl⟩
    | _ =>
        rcases props.widget with _ | widget
        · exact .inr ⟨_, fun now => rfl⟩
        · cases widget <;> exact .inr ⟨_, fun now => rfl⟩
  · rcases props.widget with _ | widget
    · exact .inr ⟨_, fun now => rfl⟩
    · cases widget <;> exact .inr ⟨_, fun now => rfl⟩
  · exact .inr ⟨_, fun now => rfl⟩

/-- The instant only shows in the bounds of a date, whatever the type. -/
theorem observed_scalarDescriptor (hnow : see.bounds = true → now = now') :
    (attr.scalarDescriptor props now).map (Descriptor.observed see) =
      (attr.scalarDescriptor props now').map (Descriptor.observed see) := by
  obtain ⟨kind, hdate⟩ | ⟨result, hsame⟩ := attr.scalarDescriptor_instant props
  · rw [hdate, hdate]
    exact congrArg Except.ok (attr.observed_dateField props hnow kind)
  · rw [hsame, hsame]

/-- Two instants give descriptors that only those tell apart who look at
bounds, or the same error. -/
theorem observed_descriptor (hnow : see.bounds = true → now = now') :
    (attr.descriptor props now).map (Descriptor.observed see) =
      (attr.descriptor props now').map (Descriptor.observed see) := by
  unfold descriptor
  split
  · rfl
  · split
    · dsimp only
      split
      · rfl
      · have helement :=
          observed_scalarDescriptor { attr with type := attr.type.element } props hnow
        revert helement
        cases scalarDescriptor { attr with type := attr.type.element } props now <;>
          cases scalarDescriptor { attr with type := attr.type.element } props now' <;>
          simp +contextual [Except.map, bind, Except.bind, Descriptor.observed]
    · exact attr.observed_scalarDescriptor props hnow

end Attribute

end FormCompiler
