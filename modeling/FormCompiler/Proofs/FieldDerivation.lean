import FormCompiler.Proofs.WalkOutcome
import FormCompiler.Walker.Field

/-!
# FormCompiler.Proofs.FieldDerivation

The entry of an attribute as a derivation.  `fieldEntry_eq` spells out one
level of questions; `Walker.Builds` has one rule for a field without a
question and one for a question with its answer and further fields, so what
holds of every entry is proved by induction on how it was built.
-/

namespace FormCompiler

/-! ## prefilling -/

namespace Attribute

variable (attr : Attribute) (props : WidgetProperties)

@[simp] theorem name_prefilled : (attr.prefilled props).name = attr.name := by
  unfold prefilled
  split <;> rfl

@[simp] theorem type_prefilled : (attr.prefilled props).type = attr.type := by
  unfold prefilled
  split <;> rfl

@[simp] theorem labels_prefilled : (attr.prefilled props).labels = attr.labels := by
  unfold prefilled
  split <;> rfl

@[simp] theorem isOptional_prefilled : (attr.prefilled props).isOptional = attr.isOptional := by
  unfold prefilled
  split <;> rfl

end Attribute

namespace Walker

/-! ## one level of questions -/

/-- The attribute that stands below a path, prefilled as the hints ask. -/
def prefilled (w : Walker) (above : Path) (declared : Attribute) : Attribute :=
  declared.prefilled (.ofHints? (w.hints? (above.child declared.name)))

/-- What is written down about an attribute before its parts. -/
def boundNotices (w : Walker) (above : Path) (declared : Attribute) : Journal :=
  ((w.prefilled above declared).unreadableBounds
    (.ofHints? (w.hints? (above.child declared.name))) w.now).map .notice

/-- The descriptor of an attribute before a question is answered. -/
def plainDescriptor (w : Walker) (above : Path) (declared : Attribute) :
    Except CompileError Descriptor :=
  (w.prefilled above declared).descriptor
    (.ofHints? (w.hints? (above.child declared.name))) w.now

def entryOf (w : Walker) (above : Path) (declared : Attribute) (descriptor : Descriptor) :
    FieldEntry where
  name := declared.name
  label := some ((above.child declared.name).key "label")
  isOptional := (w.prefilled above declared).isOptional
  isReadonly := w.isReadonly (above.child declared.name)
  condition := w.condition? (above.child declared.name)
  descriptor

/-- The descriptor of an attribute, once the question at its path is
answered. -/
def answered (w : Walker) (bundle : Bundle) (above : Path) (declared : Attribute)
    (plain : Descriptor) : Walk Descriptor :=
  match w.question? (above.child declared.name), declared.type.reference? with
  | some hints, some _ => do
    let dep ← w.dependency bundle declared.name
    let (answer, extras) ← w.questionParts
      (fun inner => w.fieldEntry dep (above.child declared.name) inner) dep
      (above.child declared.name) (w.prefilled above declared).isOptional hints
    pure (plain.attach answer extras)
  | _, _ => pure plain

/-- The course of `fieldEntry` over one level of questions. -/
theorem fieldEntry_eq (w : Walker) (bundle : Bundle) (above : Path) (declared : Attribute) :
    w.fieldEntry bundle above declared = (do
      Walk.notify ((w.prefilled above declared).unreadableBounds
        (.ofHints? (w.hints? (above.child declared.name))) w.now)
      let plain ← Walk.ofExcept (w.plainDescriptor above declared)
      let descriptor ← w.answered bundle above declared plain
      Walk.write (.attributeTexts (above.child declared.name) (w.prefilled above declared))
      return w.entryOf above declared descriptor) := by
  rw [fieldEntry]
  simp only [plainDescriptor, prefilled, answered, entryOf, Attribute.name_prefilled]
  refine congrArg _ (funext fun _ => congrArg _ (funext fun plain => ?_))
  rw [Attribute.type_prefilled]
  split
  · next hints digest hasked hrefers =>
      simp only [hasked, hrefers, bind_assoc]
  · next hnot =>
      split
      · next hints digest hasked hrefers => exact (hnot hints digest hasked hrefers).elim
      · rfl

/-! ## derivations -/

/-- How a field that an answer opens was built. -/
structure FollowUpRun where
  followUp : FollowUp
  attr : Attribute
  entry : FieldEntry
  journal : Journal

/-- The entry of a field that an answer opens: the caller's condition for
it, or else the rule of the answer. -/
def ruled (w : Walker) (path answer : Path) (run : FollowUpRun) : FieldEntry :=
  if w.conditionals.contains (path.child run.entry.name).render then run.entry
  else { run.entry with
    condition := some (answerRule answer run.followUp.option run.followUp.effects) }

/-- The attribute `declared` of a bundle is built below a path into an
entry, with a journal. -/
inductive Builds (w : Walker) : Bundle → Path → Attribute → FieldEntry → Journal → Prop
  /-- No question is asked. -/
  | plain {bundle above declared descriptor}
      (unasked : w.question? (above.child declared.name) = none ∨ declared.type.reference? = none)
      (described : w.plainDescriptor above declared = .ok descriptor) :
      Builds w bundle above declared (w.entryOf above declared descriptor)
        (w.boundNotices above declared ++
          [.attributeTexts (above.child declared.name) (w.prefilled above declared)])
  /-- A question is asked, and its parts are built from the bundle that the
  attribute refers to. -/
  | question {bundle above declared descriptor hints digest dep inner answer answerJournal}
      {runs : List FollowUpRun}
      (asked : w.question? (above.child declared.name) = some hints)
      (refers : declared.type.reference? = some digest)
      (described : w.plainDescriptor above declared = .ok descriptor)
      (depends : w.dependency? bundle declared.name = some dep)
      (answerAttr : dep.attribute? hints.answerName = some inner)
      (answered : Builds w dep (above.child declared.name) inner answer answerJournal)
      (followUps : runs.map (·.followUp) = hints.followUps)
      (followUpAttrs : ∀ run ∈ runs, dep.attribute? run.followUp.name = some run.attr)
      (followed : ∀ run ∈ runs,
        Builds w dep (above.child declared.name) run.attr run.entry run.journal) :
      Builds w bundle above declared
        (w.entryOf above declared (descriptor.attach
          { answer with
            isOptional := answer.isOptional && (w.prefilled above declared).isOptional }
          (extrasPage (above.child declared.name)
            (runs.map (w.ruled (above.child declared.name)
              ((above.child declared.name).child inner.name))))))
        (w.boundNotices above declared ++ (answerJournal ++ runs.flatMap (·.journal)) ++
          [.attributeTexts (above.child declared.name) (w.prefilled above declared)])

section Built

variable {w : Walker} {bundle : Bundle} {above : Path} {declared : Attribute}
  {entry : FieldEntry} {journal : Journal}

theorem Builds.name_eq (h : w.Builds bundle above declared entry journal) :
    entry.name = declared.name := by
  cases h with
  | plain => rfl
  | question => rfl

/-- The label key of an entry tells the path it was built at. -/
theorem Builds.label_eq (h : w.Builds bundle above declared entry journal) :
    entry.label = some ((above.child declared.name).key "label") := by
  cases h with
  | plain => rfl
  | question => rfl

end Built

/-! ## every entry has a derivation -/

section Lookups

variable {w : Walker} {bundle dep : Bundle} {name : String} {attr : Attribute} {journal : Journal}

/-- Looking up an attribute ends well if the bundle has it, and writes nothing.
-/
@[simp] theorem findAttribute_eq_ok :
    findAttribute bundle name = ⟨.ok attr, journal⟩ ↔
      bundle.attribute? name = some attr ∧ journal = [] := by
  unfold findAttribute
  cases bundle.attribute? name <;> simp

/-- Looking up a dependency ends well if it was resolved, and writes nothing.
-/
@[simp] theorem dependency_eq_ok :
    w.dependency bundle name = ⟨.ok dep, journal⟩ ↔
      w.dependency? bundle name = some dep ∧ journal = [] := by
  unfold dependency
  cases w.dependency? bundle name <;> simp

end Lookups

/-- Questions lead to longer paths, below which fewer questions are hinted. -/
theorem fieldEntry_induction (w : Walker) {motive : Bundle → Path → Attribute → Prop}
    (step : ∀ bundle above declared,
      (∀ hints, w.question? (above.child declared.name) = some hints →
        ∀ dep inner, motive dep (above.child declared.name) inner) →
      motive bundle above declared)
    (bundle : Bundle) (above : Path) (declared : Attribute) : motive bundle above declared := by
  induction hroom : w.room (above.child declared.name) using Nat.strongRecOn
    generalizing bundle above declared with
  | ind room ih =>
      refine step bundle above declared fun hints hasked dep inner => ?_
      have hroot : (above.child declared.name).isRoot = false := by simp [Path.isRoot]
      exact ih _ (hroom ▸ room_child_lt hroot hasked inner.name) _ _ _ rfl

section Parts

variable {w : Walker} {build : Attribute → Walk FieldEntry} {dep : Bundle} {path answer : Path}

/-- A further field is the entry of an attribute of the referenced bundle, with
the condition of its definition. -/
theorem followUpEntry_eq_ok {followUp : FollowUp} {entry : FieldEntry} {journal : Journal}
    (h : w.followUpEntry build dep path answer followUp = ⟨.ok entry, journal⟩) :
    ∃ run : FollowUpRun, run.followUp = followUp ∧ w.ruled path answer run = entry ∧
      run.journal = journal ∧ dep.attribute? run.followUp.name = some run.attr ∧
      build run.attr = ⟨.ok run.entry, run.journal⟩ := by
  rw [followUpEntry, Walk.bind_eq_ok] at h
  obtain ⟨attr, first, second, hfound, h, rfl⟩ := h
  obtain ⟨hattr, rfl⟩ := findAttribute_eq_ok.mp hfound
  rw [Walk.bind_eq_ok] at h
  obtain ⟨built, third, fourth, hbuilt, h, rfl⟩ := h
  refine ⟨⟨followUp, attr, built, third⟩, rfl, ?_, ?_, hattr, hbuilt⟩
  · unfold ruled
    split at h <;> simp_all
  · split at h <;> simp_all

/-- The parts of a question are built one after the other, first its answer and
then its further fields, and each writes its own part of the journal. -/
theorem questionParts_eq_ok {optional : Bool} {hints : Hints} {result : FieldEntry}
    {extras : Option PageNode} {journal : Journal}
    (h : w.questionParts build dep path optional hints = ⟨.ok (result, extras), journal⟩) :
    ∃ (inner : Attribute) (answer : FieldEntry) (answerJournal : Journal)
      (runs : List FollowUpRun),
      dep.attribute? hints.answerName = some inner ∧
      build inner = ⟨.ok answer, answerJournal⟩ ∧
      runs.map (·.followUp) = hints.followUps ∧
      (∀ run ∈ runs, dep.attribute? run.followUp.name = some run.attr ∧
        build run.attr = ⟨.ok run.entry, run.journal⟩) ∧
      result = { answer with isOptional := answer.isOptional && optional } ∧
      extras = extrasPage path (runs.map (w.ruled path (path.child inner.name))) ∧
      journal = answerJournal ++ runs.flatMap (·.journal) := by
  rw [questionParts, Walk.bind_eq_ok] at h
  obtain ⟨inner, first, second, hfound, h, rfl⟩ := h
  obtain ⟨hinner, rfl⟩ := findAttribute_eq_ok.mp hfound
  rw [Walk.bind_eq_ok] at h
  obtain ⟨answer, answerJournal, rest, hanswer, h, rfl⟩ := h
  rw [Walk.bind_eq_ok] at h
  obtain ⟨entries, followed, last, hentries, h, rfl⟩ := h
  obtain ⟨runs, hfollowUps, rfl, rfl, hruns⟩ :=
    Walk.mapM_eq_ok (fun _ _ _ => followUpEntry_eq_ok) hentries
  simp only [Walk.pure_eq, Walk.mk.injEq, Except.ok.injEq, Prod.mk.injEq] at h
  obtain ⟨⟨rfl, rfl⟩, rfl⟩ := h
  exact ⟨inner, answer, answerJournal, runs, hinner, hanswer, hfollowUps, hruns, rfl, rfl,
    by simp⟩

end Parts

section Course

variable {w : Walker} {bundle : Bundle} {above : Path} {declared : Attribute}
  {plain descriptor : Descriptor} {journal : Journal}

/-- The course of a walk that ends with an entry: a descriptor is made, its
question is answered, and the texts of the attribute are written down. -/
theorem fieldEntry_eq_ok {entry : FieldEntry}
    (h : w.fieldEntry bundle above declared = ⟨.ok entry, journal⟩) :
    ∃ plain descriptor parts, w.plainDescriptor above declared = .ok plain ∧
      w.answered bundle above declared plain = ⟨.ok descriptor, parts⟩ ∧
      entry = w.entryOf above declared descriptor ∧
      journal = w.boundNotices above declared ++ parts ++
        [.attributeTexts (above.child declared.name) (w.prefilled above declared)] := by
  rw [fieldEntry_eq, Walk.bind_eq_ok] at h
  obtain ⟨_, notices, rest, hnotices, h, rfl⟩ := h
  obtain rfl := Walk.notify_eq_ok.mp hnotices
  rw [Walk.bind_eq_ok] at h
  obtain ⟨plain, first, rest', hdescribed, h, rfl⟩ := h
  obtain ⟨hplain, rfl⟩ := Walk.ofExcept_eq_ok.mp hdescribed
  rw [Walk.bind_eq_ok] at h
  obtain ⟨descriptor, parts, last, hanswered, h, rfl⟩ := h
  rw [Walk.bind_eq_ok] at h
  obtain ⟨_, texts, nothing, htexts, h, rfl⟩ := h
  obtain rfl := Walk.write_eq_ok.mp htexts
  simp only [Walk.pure_eq, Walk.mk.injEq, Except.ok.injEq] at h
  obtain ⟨rfl, rfl⟩ := h
  exact ⟨plain, descriptor, parts, hplain, hanswered, rfl, by simp [boundNotices]⟩

/-- Without a question the descriptor stays as it is. -/
theorem answered_of_unasked
    (h : w.question? (above.child declared.name) = none ∨ declared.type.reference? = none) :
    w.answered bundle above declared plain = pure plain := by
  unfold answered
  split
  · next hints digest hasked hrefers => simp [hasked, hrefers] at h
  · rfl

/-- The parts of a question are fields of the bundle that the attribute
refers to, placed below the question. -/
theorem answered_eq_ok {hints : Hints} {digest : String}
    (asked : w.question? (above.child declared.name) = some hints)
    (refers : declared.type.reference? = some digest)
    (h : w.answered bundle above declared plain = ⟨.ok descriptor, journal⟩) :
    ∃ (dep : Bundle) (inner : Attribute) (answer : FieldEntry) (answerJournal : Journal)
      (runs : List FollowUpRun),
      w.dependency? bundle declared.name = some dep ∧
      dep.attribute? hints.answerName = some inner ∧
      w.fieldEntry dep (above.child declared.name) inner = ⟨.ok answer, answerJournal⟩ ∧
      runs.map (·.followUp) = hints.followUps ∧
      (∀ run ∈ runs, dep.attribute? run.followUp.name = some run.attr ∧
        w.fieldEntry dep (above.child declared.name) run.attr = ⟨.ok run.entry, run.journal⟩) ∧
      descriptor = plain.attach
        { answer with isOptional := answer.isOptional && (w.prefilled above declared).isOptional }
        (extrasPage (above.child declared.name)
          (runs.map (w.ruled (above.child declared.name)
            ((above.child declared.name).child inner.name)))) ∧
      journal = answerJournal ++ runs.flatMap (·.journal) := by
  simp only [answered, asked, refers] at h
  rw [Walk.bind_eq_ok] at h
  obtain ⟨dep, first, rest, hfound, h, rfl⟩ := h
  obtain ⟨hdep, rfl⟩ := dependency_eq_ok.mp hfound
  rw [Walk.bind_eq_ok] at h
  obtain ⟨⟨result, extras⟩, parts, last, hparts, h, rfl⟩ := h
  obtain ⟨inner, answer, answerJournal, runs, hinner, hanswer, hfollowUps, hruns, rfl, rfl,
    rfl⟩ := questionParts_eq_ok hparts
  simp only [Walk.pure_eq, Walk.mk.injEq, Except.ok.injEq] at h
  obtain ⟨rfl, rfl⟩ := h
  exact ⟨dep, inner, answer, answerJournal, runs, hdep, hinner, hanswer, hfollowUps, hruns, rfl,
    by simp⟩

end Course

/-- Every entry that a walk ends with has a derivation. -/
theorem builds_of_fieldEntry {w : Walker} {bundle : Bundle} {above : Path} {declared : Attribute}
    {entry : FieldEntry} {journal : Journal}
    (h : w.fieldEntry bundle above declared = ⟨.ok entry, journal⟩) :
    w.Builds bundle above declared entry journal := by
  induction bundle, above, declared using fieldEntry_induction w generalizing entry journal with
  | step bundle above declared ih =>
      obtain ⟨plain, descriptor, parts, hplain, hanswered, rfl, rfl⟩ := fieldEntry_eq_ok h
      by_cases hunasked : w.question? (above.child declared.name) = none ∨
          declared.type.reference? = none
      · rw [answered_of_unasked hunasked, Walk.pure_eq, Walk.mk.injEq, Except.ok.injEq]
          at hanswered
        obtain ⟨rfl, rfl⟩ := hanswered
        rw [List.append_nil]
        exact .plain hunasked hplain
      · obtain ⟨hasked, hrefers⟩ := not_or.mp hunasked
        obtain ⟨hints, hasked⟩ := Option.ne_none_iff_exists'.mp hasked
        obtain ⟨digest, hrefers⟩ := Option.ne_none_iff_exists'.mp hrefers
        obtain ⟨dep, inner, answer, answerJournal, runs, hdep, hinner, hanswer, hfollowUps, hruns,
          rfl, rfl⟩ := answered_eq_ok hasked hrefers hanswered
        exact .question hasked hrefers hplain hdep hinner (ih hints hasked dep inner hanswer)
          hfollowUps (fun run hrun => (hruns run hrun).1)
          (fun run hrun => ih hints hasked dep run.attr (hruns run hrun).2)

end Walker

end FormCompiler
