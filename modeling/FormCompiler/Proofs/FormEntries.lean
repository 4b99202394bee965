import FormCompiler.FieldBuilder
import FormCompiler.Path
import FormCompiler.Question

/-!
# FormCompiler.Proofs.FormEntries

All field entries of a form, each with its path.  `Node.located` goes down
through nested pages, through the elements of lists, and through the answers
and further fields of questions; it reads the form alone.  The path of an
entry is made of the names on the way to it, where a list shares the name of
the page that holds it and the page of further fields has none.

Before a question is answered, the descriptor of an attribute holds no entry
(`Descriptor.IsPlain`).
-/

namespace FormCompiler

/-! ## lists and questions -/

def Descriptor.isList : Descriptor → Bool
  | .list _ _ => true
  | _ => false

def FieldEntry.isList (entry : FieldEntry) : Bool := entry.descriptor.isList

/-- The answer and the further fields of a question, which an array may
repeat. -/
def Descriptor.asked? : Descriptor → Option (FieldEntry × Option PageNode)
  | .question (some answer) extras => some (answer, extras)
  | .array _ (.question (some answer) extras) => some (answer, extras)
  | _ => none

/-- The path of an entry on a page at `above`. -/
def FieldEntry.placedAt (entry : FieldEntry) (above : Path) : Path :=
  if entry.isList then above else above.child entry.name

/-! ## the entries of a form -/

mutual

/-- The entries within the descriptor of a field at a path. -/
def Descriptor.located (path : Path) : Descriptor → List (Path × FieldEntry)
  | .array _ element => element.located path
  | .list _ elements => Node.located path elements
  | .question (some answer) (some extras) => answer.located path ++ extras.located path
  | .question (some answer) none => answer.located path
  | .question none (some extras) => extras.located path
  | _ => []

def FieldEntry.located (above : Path) : FieldEntry → List (Path × FieldEntry)
  | ⟨name, label, isOptional, isReadonly, condition, descriptor⟩ =>
    let path := if descriptor.isList then above else above.child name
    (path, ⟨name, label, isOptional, isReadonly, condition, descriptor⟩) ::
      descriptor.located path

def PageNode.located (path : Path) : PageNode → List (Path × FieldEntry)
  | ⟨_, _, _, _, fields⟩ => Node.located path fields

def Node.located (above : Path) : List Node → List (Path × FieldEntry)
  | [] => []
  | .field entry :: nodes => entry.located above ++ Node.located above nodes
  | .page page :: nodes => page.located (above.child page.name) ++ Node.located above nodes

end

/-- The entries of a form; the names of its top-level pages do not count. -/
def Form.located (form : Form) : List (Path × FieldEntry) :=
  form.pages.flatMap fun page => Node.located .root page.fields

/-- The path of an entry is also where its descriptor is entered. -/
theorem FieldEntry.located_eq (entry : FieldEntry) (above : Path) :
    entry.located above =
      (entry.placedAt above, entry) :: entry.descriptor.located (entry.placedAt above) := by
  cases entry
  rw [FieldEntry.located]
  rfl

/-- A page adds nothing to the entries of its fields. -/
theorem PageNode.located_eq (page : PageNode) (path : Path) :
    page.located path = Node.located path page.fields := by
  cases page
  rw [PageNode.located]

theorem Node.located_map_field (path : Path) (entries : List FieldEntry) :
    Node.located path (entries.map .field) =
      entries.flatMap fun entry => entry.located path := by
  induction entries with
  | nil => rw [List.map_nil, Node.located, List.flatMap_nil]
  | cons entry entries ih => rw [List.map_cons, Node.located, ih, List.flatMap_cons]

theorem Node.located_append (path : Path) (first second : List Node) :
    Node.located path (first ++ second) = Node.located path first ++ Node.located path second := by
  induction first with
  | nil => rw [List.nil_append, Node.located, List.nil_append]
  | cons node nodes ih =>
      cases node with
      | field entry => rw [List.cons_append, Node.located, ih, Node.located, List.append_assoc]
      | page page => rw [List.cons_append, Node.located, ih, Node.located, List.append_assoc]

theorem Node.mem_located_cons {path : Path} {nodes : List Node} {located : Path × FieldEntry}
    (node : Node) (h : located ∈ Node.located path nodes) :
    located ∈ Node.located path (node :: nodes) := by
  rw [← List.singleton_append, Node.located_append]
  exact List.mem_append_right _ h

/-- The entries within a question are those of its answer and those on the
page of further fields. -/
theorem Descriptor.located_of_asked? {descriptor : Descriptor} {answer : FieldEntry}
    {extras : Option PageNode} (h : descriptor.asked? = some (answer, extras)) (path : Path) :
    descriptor.located path = answer.located path ++
      extras.toList.flatMap fun page => Node.located path page.fields := by
  have hquestion : (Descriptor.question (some answer) extras).located path =
      answer.located path ++ extras.toList.flatMap fun page => Node.located path page.fields := by
    cases extras with
    | none => simp [Descriptor.located]
    | some page => simp [Descriptor.located, PageNode.located_eq]
  unfold asked? at h
  split at h
  · obtain ⟨rfl, rfl⟩ := Prod.mk.inj (Option.some.inj h)
    exact hquestion
  · obtain ⟨rfl, rfl⟩ := Prod.mk.inj (Option.some.inj h)
    rw [Descriptor.located]
    exact hquestion
  · contradiction

/-! ## descriptors before questions are answered -/

/-- The descriptor is no list and holds no entry. -/
structure Descriptor.IsPlain (descriptor : Descriptor) : Prop where
  isList : descriptor.isList = false
  asked? : descriptor.asked? = none
  located : ∀ path, descriptor.located path = []

namespace Attribute

variable {attr : Attribute} {props : WidgetProperties} {now : Timestamp} {descriptor : Descriptor}

/-- An array of what a base type gives is plain as well. -/
theorem isPlain_of_scalarDescriptor (h : attr.scalarDescriptor props now = .ok descriptor) :
    descriptor.IsPlain ∧ ∀ cardinality, (Descriptor.array cardinality descriptor).IsPlain := by
  unfold scalarDescriptor at h
  split at h
  all_goals cases h
  all_goals
    refine ⟨⟨rfl, rfl, fun path => ?_⟩, fun cardinality => ⟨rfl, rfl, fun path => ?_⟩⟩
    all_goals simp [Descriptor.located, dateField]

/-- A descriptor is one of choices or files, or it comes from the base type,
of the attribute or of its elements. -/
theorem descriptor_eq_ok (h : attr.descriptor props now = .ok descriptor) :
    (∃ display variants, descriptor = .choice display variants) ∨
      (∃ cardinality, descriptor = .multifile cardinality) ∨
      (∃ single cardinality element, single.type.base = attr.type.base ∧
        Attribute.scalarDescriptor single props now = .ok element ∧
          descriptor = .array cardinality element) ∨
      attr.scalarDescriptor props now = .ok descriptor := by
  unfold Attribute.descriptor at h
  split at h
  · exact .inl ⟨_, _, (Except.ok.inj h).symm⟩
  · split at h
    · dsimp only at h
      split at h
      · exact .inr (.inl ⟨_, (Except.ok.inj h).symm⟩)
      · cases helement : { attr with type := attr.type.element }.scalarDescriptor props now with
        | ok element =>
            rw [helement] at h
            exact .inr (.inr (.inl ⟨{ attr with type := attr.type.element }, _, element, rfl,
              helement, (Except.ok.inj h).symm⟩))
        | error error =>
            rw [helement] at h
            cases h
    · exact .inr (.inr (.inr h))

/-- The descriptor of an attribute is made without entries, whatever the type.
-/
theorem isPlain_of_descriptor (h : attr.descriptor props now = .ok descriptor) :
    descriptor.IsPlain := by
  obtain ⟨_, _, rfl⟩ | ⟨_, rfl⟩ | ⟨_, _, _, -, helement, rfl⟩ | hscalar := descriptor_eq_ok h
  · exact ⟨rfl, rfl, fun path => by simp [Descriptor.located]⟩
  · exact ⟨rfl, rfl, fun path => by simp [Descriptor.located]⟩
  · exact (isPlain_of_scalarDescriptor helement).2 _
  · exact (isPlain_of_scalarDescriptor hscalar).1

end Attribute

/-- A plain descriptor takes the answer and the further fields, or it is no
question and stays as it is. -/
theorem Descriptor.IsPlain.attach {descriptor : Descriptor} (h : descriptor.IsPlain)
    (answer : FieldEntry) (extras : Option PageNode) :
    (descriptor.attach answer extras).isList = false ∧
      ((descriptor.attach answer extras).asked? = some (answer, extras) ∨
        (descriptor.attach answer extras).IsPlain) := by
  unfold Descriptor.attach
  split
  · exact ⟨rfl, .inl rfl⟩
  · exact ⟨rfl, .inl rfl⟩
  · exact ⟨h.isList, .inr h⟩

end FormCompiler
