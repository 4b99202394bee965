import FormCompiler.Compile
import FormCompiler.Proofs.FormEntries
import FormCompiler.Proofs.WalkOutcome

/-!
# FormCompiler.Proofs.WritableForms

Which forms can be written.  The only part without a text is a date before
the year zero, so a form is written exactly if the bounds of its date fields
are dates from the year zero on, wherever in the form such a field stands
(`CompiledForm.isWritten_toJson`).
-/

namespace FormCompiler

/-! ## writable dates -/

/-- Does the bound have a text?  One that could not be read has. -/
def DateBound.IsWritable (bound : DateBound) : Prop := ∀ t, bound = some t → 0 ≤ t.date.year

/-- The date range of a field, or of the items that an array repeats. -/
def Descriptor.range? : Descriptor → Option (DateBound × DateBound)
  | .date _ _ range => range
  | .array _ element => element.range?
  | _ => none

/-- Have the bounds of its dates texts, if it has any? -/
def Descriptor.HasWritableRange (descriptor : Descriptor) : Prop :=
  ∀ range, descriptor.range? = some range → range.1.IsWritable ∧ range.2.IsWritable

/-- Have the bounds of the dates in an entry texts, if it has any? -/
def FieldEntry.HasWritableRange (entry : FieldEntry) : Prop := entry.descriptor.HasWritableRange

/-! ## what is written -/

/-- Is the part written, without an error? -/
def Written.IsWritten {α : Type} (part : Written α) : Prop := ∃ a, part = .ok a

open Written (IsWritten)

section Parts

variable {α β : Type} {part : Written α}

theorem isWritten_ok (a : α) : IsWritten (.ok a) := ⟨a, rfl⟩

/-- Two parts are written if the first is, where the second always is. -/
theorem isWritten_bind {next : α → Written β} (h : ∀ a, IsWritten (next a)) :
    IsWritten (part >>= next) ↔ IsWritten part := by
  constructor
  · rintro ⟨b, hb⟩
    obtain ⟨a, ha, -⟩ := except_bind_eq_ok.mp hb
    exact ⟨a, ha⟩
  · rintro ⟨a, ha⟩
    obtain ⟨b, hb⟩ := h a
    exact ⟨b, except_bind_eq_ok.mpr ⟨a, ha, hb⟩⟩

/-- Two parts, one after the other. -/
theorem isWritten_bind_bind {other : Written β} {γ : Type} {next : α → β → Written γ}
    (h : ∀ a b, IsWritten (next a b)) :
    IsWritten (part >>= fun a => other >>= next a) ↔ IsWritten part ∧ IsWritten other := by
  constructor
  · rintro ⟨c, hc⟩
    obtain ⟨a, ha, hc⟩ := except_bind_eq_ok.mp hc
    obtain ⟨b, hb, -⟩ := except_bind_eq_ok.mp hc
    exact ⟨⟨a, ha⟩, ⟨b, hb⟩⟩
  · rintro ⟨⟨a, ha⟩, ⟨b, hb⟩⟩
    obtain ⟨c, hc⟩ := h a b
    exact ⟨c, except_bind_eq_ok.mpr ⟨a, ha, except_bind_eq_ok.mpr ⟨b, hb, hc⟩⟩⟩

theorem isWritten_mapM {f : α → Written β} {xs : List α} :
    IsWritten (xs.mapM f) ↔ ∀ x ∈ xs, IsWritten (f x) := by
  induction xs with
  | nil => simp [IsWritten, pure, Except.pure]
  | cons x xs ih =>
      rw [List.mapM_cons, List.forall_mem_cons, ← ih]
      exact isWritten_bind_bind fun y ys => isWritten_ok (y :: ys)

end Parts

/-- A bound is written unless it is a date before the year zero. -/
theorem DateBound.isWritten_toJson (bound : DateBound) :
    IsWritten bound.toJson ↔ bound.IsWritable := by
  cases bound with
  | none => simp [DateBound.toJson, IsWritable, isWritten_ok]
  | some t =>
      rw [DateBound.toJson, Timestamp.toJson, Timestamp.render?]
      by_cases hyear : t.date.year < 0
      · simp [IsWritten, IsWritable, hyear]
      · simp [IsWritten, IsWritable, hyear, Int.not_lt.mp hyear]

theorem isWritten_dateRangeMembers (range : Option (DateBound × DateBound)) :
    IsWritten (dateRangeMembers range) ↔
      ∀ bounds, range = some bounds → bounds.1.IsWritable ∧ bounds.2.IsWritable := by
  cases range with
  | none => simp [dateRangeMembers, isWritten_ok]
  | some bounds =>
      obtain ⟨start, stop⟩ := bounds
      have hparts : IsWritten (dateRangeMembers (some (start, stop))) ↔
          IsWritten start.toJson ∧ IsWritten stop.toJson :=
        isWritten_bind_bind fun _ _ => isWritten_ok _
      rw [hparts, DateBound.isWritten_toJson, DateBound.isWritten_toJson]
      simp

/-! ## nodes -/

/-- A question is written if its answer and its page are. -/
theorem Descriptor.isWritten_question (answer : Option FieldEntry) (extras : Option PageNode) :
    IsWritten (Descriptor.question answer extras).toJson ↔
      (∀ entry, answer = some entry → IsWritten entry.toJson) ∧
        ∀ page, extras = some page → IsWritten page.toJson := by
  rw [Descriptor.toJson, isWritten_bind_bind fun _ _ => isWritten_ok _]
  refine and_congr ?_ ?_
  · cases answer with
    | none => simp [FieldEntry.optionalMember, isWritten_ok]
    | some entry =>
        rw [FieldEntry.optionalMember, isWritten_bind fun _ => isWritten_ok _]
        simp
  · cases extras with
    | none => simp [PageNode.optionalMember, isWritten_ok]
    | some page =>
        rw [PageNode.optionalMember, isWritten_bind fun _ => isWritten_ok _]
        simp

mutual

/-- A descriptor is written if its own range is, and that of every entry
within. -/
theorem Descriptor.isWritten_toJson (path : Path) : (descriptor : Descriptor) →
    (IsWritten descriptor.toJson ↔ descriptor.HasWritableRange ∧
      ∀ located ∈ descriptor.located path, located.2.HasWritableRange)
  | .array cardinality element => by
      rw [Descriptor.toJson, isWritten_bind fun _ => isWritten_ok _,
        element.isWritten_toJson path]
      rfl
  | .list cardinality elements => by
      rw [Descriptor.toJson, isWritten_bind fun _ => isWritten_ok _,
        Node.isWritten_listToJson path elements]
      simp [Descriptor.located, Descriptor.HasWritableRange, Descriptor.range?]
  | .date kind format range => by
      rw [Descriptor.toJson, isWritten_bind fun _ => isWritten_ok _, isWritten_dateRangeMembers]
      simp [Descriptor.located, Descriptor.HasWritableRange, Descriptor.range?]
  | .question none none => by
      rw [Descriptor.isWritten_question]
      simp [Descriptor.located, Descriptor.HasWritableRange, Descriptor.range?]
  | .question (some answer) none => by
      rw [Descriptor.isWritten_question]
      simp [Descriptor.located, Descriptor.HasWritableRange, Descriptor.range?,
        answer.isWritten_toJson path]
  | .question none (some extras) => by
      rw [Descriptor.isWritten_question]
      simp [Descriptor.located, Descriptor.HasWritableRange, Descriptor.range?,
        extras.isWritten_toJson path]
  | .question (some answer) (some extras) => by
      rw [Descriptor.isWritten_question]
      simp [Descriptor.located, Descriptor.HasWritableRange, Descriptor.range?,
        answer.isWritten_toJson path, extras.isWritten_toJson path, or_imp, forall_and]
  | .choice .. | .multifile _ | .text .. | .codeScanner _ | .file | .signature _ | .number _
  | .checkbox | .hidden .. => by
      simp [Descriptor.toJson, isWritten_ok, Descriptor.located, Descriptor.HasWritableRange,
        Descriptor.range?]

/-- An entry is written if its range is, and that of every entry within. -/
theorem FieldEntry.isWritten_toJson (above : Path) : (entry : FieldEntry) →
    (IsWritten entry.toJson ↔ ∀ located ∈ entry.located above, located.2.HasWritableRange)
  | ⟨name, label, isOptional, isReadonly, condition, descriptor⟩ => by
      rw [FieldEntry.toJson, isWritten_bind fun _ => isWritten_ok _, FieldEntry.located_eq,
        List.forall_mem_cons, descriptor.isWritten_toJson]
      rfl

theorem PageNode.isWritten_toJson (path : Path) : (page : PageNode) →
    (IsWritten page.toJson ↔ ∀ located ∈ page.located path, located.2.HasWritableRange)
  | ⟨kind, name, title, condition, fields⟩ => by
      rw [PageNode.toJson, isWritten_bind fun _ => isWritten_ok _, PageNode.located,
        Node.isWritten_listToJson path fields]

/-- Nodes are written if every entry within them is. -/
theorem Node.isWritten_listToJson (above : Path) : (nodes : List Node) →
    (IsWritten (Node.listToJson nodes) ↔
      ∀ located ∈ Node.located above nodes, located.2.HasWritableRange)
  | [] => by simp [Node.listToJson, Node.located, isWritten_ok]
  | .field entry :: nodes => by
      rw [Node.listToJson, isWritten_bind_bind fun _ _ => isWritten_ok _, Node.located,
        List.forall_mem_append, Node.toJson, entry.isWritten_toJson above,
        Node.isWritten_listToJson above nodes]
  | .page page :: nodes => by
      rw [Node.listToJson, isWritten_bind_bind fun _ _ => isWritten_ok _, Node.located,
        List.forall_mem_append, Node.toJson, page.isWritten_toJson (above.child page.name),
        Node.isWritten_listToJson above nodes]

end

/-- A compiled form is written exactly if the dates in its entries are. -/
theorem CompiledForm.isWritten_toJson (compiled : CompiledForm) :
    IsWritten compiled.toJson ↔
      ∀ located ∈ compiled.form.located, located.2.HasWritableRange := by
  have hform : IsWritten compiled.toJson ↔ IsWritten compiled.form.toJson :=
    isWritten_bind fun _ => isWritten_ok _
  have hpages : IsWritten compiled.form.toJson ↔
      IsWritten (compiled.form.pages.mapM PageNode.toJson) :=
    isWritten_bind fun _ => isWritten_ok _
  rw [hform, hpages, isWritten_mapM, Form.located, List.forall_mem_flatMap]
  refine forall₂_congr fun page _ => ?_
  rw [page.isWritten_toJson .root, PageNode.located_eq]

end FormCompiler
