import FormCompiler.Proofs.DottedPaths
import FormCompiler.Proofs.PathKeys
import Mathlib.Data.List.Forall2

/-!
# FormCompiler.Proofs.QuestionExtras

The further fields of a question, told from its hints.  The hints map each
answer to a list of definitions (`Hints.definitions`), and every definition
opens one field: the attribute that it names in the bundle the question
refers to, built below the question.  Such a field stands under the caller's
condition for its dotted path or, where there is none, under a rule that
compares the answer of the question with the answer it is defined for
(`Walker.Opens`).

A walk that ends with a question has opened the field of each definition, in
the order of the document, and nothing else
(`Walker.extras_open_definitions`).
-/

namespace FormCompiler

/-! ## definitions of further fields -/

namespace Hints

/-- The definitions of further fields, each with the answer that it stands
under, in document order.  An answer without a list has none. -/
def definitions (hints : Hints) : List (String × Json) :=
  match hints.options with
  | some (.object options) =>
    options.flatMap fun
      | (option, .array definitions) => definitions.map (option, ·)
      | _ => []
  | _ => []

/-- The attribute that a definition names: the text itself or the member
`an`. -/
def definedName : Json → String
  | .string name => name
  | definition => (definition.textMember? "an").getD ""

/-- The effects that a definition declares; without any, the field is
displayed. -/
def definedEffects (definition : Json) : Json :=
  (definition.get? "e").getD (.array [.string "display"])

/-- A definition is read by its name and its effects. -/
theorem followUp_ofJson (option : String) (definition : Json) :
    FollowUp.ofJson option definition =
      ⟨option, definedName definition, definedEffects definition⟩ := by
  cases definition with
  | string name => rfl
  | _ => rfl

/-- The further fields are read from the definitions, in their order. -/
theorem followUps_eq (hints : Hints) :
    hints.followUps = hints.definitions.map fun definition =>
      FollowUp.ofJson definition.1 definition.2 := by
  unfold followUps definitions
  split
  · next options heq =>
      simp only [heq, Option.bind_some, Json.asObject?, Option.getD_some, List.map_flatMap]
      refine congrArg (options.flatMap ·) (funext fun option => ?_)
      obtain ⟨option, value⟩ := option
      cases value with
      | array definitions => simp [Json.asArray?]
      | _ => rfl
  · next hnot =>
      cases hoptions : hints.options with
      | none => rfl
      | some value =>
          cases value with
          | object options => exact (hnot options hoptions).elim
          | _ => rfl

end Hints

/-! ## slots of questions -/

/-- The answer and the page of further fields of a question, or of the
question that an array repeats. -/
def Descriptor.question? : Descriptor → Option (Option FieldEntry × Option PageNode)
  | .question answer extras => some (answer, extras)
  | .array _ (.question answer extras) => some (answer, extras)
  | _ => none

namespace Descriptor

variable {descriptor : Descriptor} {answer : FieldEntry} {extras : Option PageNode}
  {slots : Option FieldEntry × Option PageNode}

/-- A question holds just what was attached to it. -/
theorem eq_of_question?_attach (h : (descriptor.attach answer extras).question? = some slots) :
    slots = (some answer, extras) := by
  unfold attach at h
  split at h
  · exact (Option.some.inj h).symm
  · exact (Option.some.inj h).symm
  · next hquestion harray =>
      unfold question? at h
      split at h
      · exact (hquestion _ _ rfl).elim
      · exact (harray _ _ _ rfl).elim
      · contradiction

/-- A question takes what is attached to it. -/
theorem question?_attach (h : descriptor.question? = some slots) :
    (descriptor.attach answer extras).question? = some (some answer, extras) := by
  unfold question? at h
  split at h
  · rfl
  · rfl
  · contradiction

/-- What is no question stays as it is. -/
theorem attach_eq_self (h : descriptor.question? = none) :
    descriptor.attach answer extras = descriptor := by
  unfold attach
  split
  · contradiction
  · contradiction
  · rfl

theorem asked?_of_question? (h : descriptor.question? = some (some answer, extras)) :
    descriptor.asked? = some (answer, extras) := by
  unfold question? at h
  split at h
  · obtain ⟨rfl, rfl⟩ := Prod.mk.inj (Option.some.inj h)
    rfl
  · obtain ⟨rfl, rfl⟩ := Prod.mk.inj (Option.some.inj h)
    rfl
  · contradiction

end Descriptor

theorem FieldEntry.with_condition {entry : FieldEntry} {condition : Option Json}
    (h : entry.condition = condition) : { entry with condition } = entry := by
  cases entry
  cases h
  rfl

/-! ## the fields that definitions open -/

/-- The first name and the other names of a longer path are rejoined by a
dot. -/
theorem Path.exists_splitHead?_child {path : Path} (hpath : path.isRoot = false) (name : String) :
    ∃ fact place, (path.child name).splitHead? = some (fact, place) ∧
      path.segments.head? = some fact ∧ fact ++ "." ++ place = (path.child name).render := by
  obtain ⟨names⟩ := path
  cases names with
  | nil => simp [isRoot] at hpath
  | cons fact names =>
      exact ⟨fact, joinDots (names ++ [name]), rfl, rfl, (joinDots_cons (by simp) fact).symm⟩

namespace Walker

variable {w : Walker} {bundle dep : Bundle} {above path : Path} {declared : Attribute}
  {entry : FieldEntry}

/-- The field that a definition opens below a question at `path`: the
attribute that it names in the bundle `dep`, built there.  The dotted text
of the answer of the question is `answer`. -/
inductive Opens (w : Walker) (dep : Bundle) (path : Path) (answer : String) :
    String × Json → FieldEntry → Prop
  /-- The caller has a condition for the field. -/
  | kept {option definition attr built condition}
      (named : dep.attribute? (Hints.definedName definition) = some attr)
      (entered : (w.fieldEntry dep path attr).outcome = .ok built)
      (known : w.conditionals.find? (path.render ++ "." ++ built.name) = some condition) :
      Opens w dep path answer (option, definition) { built with condition := some condition }
  /-- The field depends on the answer: `fact` is the first name on the way to
  it, `place` the text of the others. -/
  | ruled {option definition attr built fact place}
      (named : dep.attribute? (Hints.definedName definition) = some attr)
      (entered : (w.fieldEntry dep path attr).outcome = .ok built)
      (unknown : w.conditionals.find? (path.render ++ "." ++ built.name) = none)
      (first : path.segments.head? = some fact)
      (rejoined : fact ++ "." ++ place = answer) :
      Opens w dep path answer (option, definition)
        { built with
          condition := some (.array [.object
            [("conditions", .object [("all", .array [.object
              [("fact", .string fact), ("path", .string place), ("operator", .string "equal"),
                ("value", .string option)]])]),
            ("effects", Hints.definedEffects definition)]]) }

/-- A field that an answer opens is the one that its definition opens. -/
theorem opens_ruled (hpath : path.isRoot = false) (answer : String) (definition : String × Json)
    {run : FollowUpRun} (hdefined : run.followUp = FollowUp.ofJson definition.1 definition.2)
    (named : dep.attribute? run.followUp.name = some run.attr)
    (entered : w.fieldEntry dep path run.attr = ⟨.ok run.entry, run.journal⟩) :
    w.Opens dep path (path.child answer).render definition
      (w.ruled path (path.child answer) run) := by
  obtain ⟨option, definition⟩ := definition
  rw [Hints.followUp_ofJson] at hdefined
  rw [hdefined] at named
  have houtcome := congrArg Walk.outcome entered
  have hbuilds := builds_of_fieldEntry entered
  have hname : (path.child run.entry.name).render = path.render ++ "." ++ run.entry.name :=
    Path.render_child hpath _
  unfold ruled
  rw [hname, Dictionary.contains]
  cases hfound : w.conditionals.find? (path.render ++ "." ++ run.entry.name) with
  | some condition =>
      -- The field was built under the condition for its own path.
      have hcondition : run.entry.condition = some condition := by
        rw [hbuilds.condition_eq, condition?, ← hbuilds.name_eq, hname, hfound]
      have hkept : w.Opens dep path (path.child answer).render (option, definition)
          { run.entry with condition := some condition } := .kept named houtcome hfound
      rw [Option.isSome_some, if_pos rfl]
      rwa [FieldEntry.with_condition hcondition] at hkept
  | none =>
      obtain ⟨fact, place, hsplit, hfirst, hrejoined⟩ := Path.exists_splitHead?_child hpath answer
      rw [Option.isSome_none, if_neg Bool.false_ne_true, hdefined, answerRule, hsplit]
      exact .ruled named houtcome hfound hfirst hrejoined

/-- The fields that the answers open are those of the definitions, one by
one. -/
theorem forall₂_opens_ruled (hpath : path.isRoot = false) (answer : String)
    {definitions : List (String × Json)} {runs : List FollowUpRun}
    (hdefined : runs.map (·.followUp) =
      definitions.map fun definition => FollowUp.ofJson definition.1 definition.2)
    (hruns : ∀ run ∈ runs, dep.attribute? run.followUp.name = some run.attr ∧
      w.fieldEntry dep path run.attr = ⟨.ok run.entry, run.journal⟩) :
    List.Forall₂ (w.Opens dep path (path.child answer).render) definitions
      (runs.map (w.ruled path (path.child answer))) := by
  rw [← List.forall₂_eq_eq_eq, List.forall₂_map_left_iff, List.forall₂_map_right_iff] at hdefined
  rw [List.forall₂_map_right_iff]
  refine .flip (((List.forall₂_and_left _ _).mpr ⟨hruns, hdefined⟩).imp fun run definition h => ?_)
  obtain ⟨⟨named, entered⟩, hrun⟩ := h
  exact opens_ruled hpath answer definition hrun named entered

/-- There is no page of further fields only if there are no fields. -/
theorem extrasPage_eq_none {entries : List FieldEntry} :
    extrasPage path entries = none ↔ entries = [] := by
  unfold extrasPage
  split
  · next h => simpa using h
  · next h => simpa using h

/-- A walk that ends with a question has opened the field of each definition
in its hints, in order, and attached them beside the answer; without a
definition there is no page of further fields. -/
theorem extras_open_definitions {hints : Hints} {digest : String} {answer : Option FieldEntry}
    {extras : Option PageNode}
    (h : (w.fieldEntry bundle above declared).outcome = .ok entry)
    (asked : w.question? (above.child declared.name) = some hints)
    (refers : declared.type.reference? = some digest)
    (slots : entry.descriptor.question? = some (answer, extras)) :
    ∃ dep answered fields, w.dependency? bundle declared.name = some dep ∧
      answer = some answered ∧ answered.name = hints.answerName ∧
      List.Forall₂
        (w.Opens dep (above.child declared.name)
          ((above.child declared.name).child answered.name).render)
        hints.definitions fields ∧
      (extras = none ↔ hints.definitions = []) ∧
      ∀ page, extras = some page → page.fields = fields.map .field := by
  have hroot : (above.child declared.name).isRoot = false := by simp [Path.isRoot]
  have hwalk : w.fieldEntry bundle above declared =
      ⟨.ok entry, (w.fieldEntry bundle above declared).journal⟩ := by rw [← h]
  obtain ⟨plain, descriptor, parts, -, hanswered, rfl, -⟩ := fieldEntry_eq_ok hwalk
  obtain ⟨dep, inner, core, journal, runs, depends, found, hcore, hdefined, hruns, rfl, -⟩ :=
    answered_eq_ok asked refers hanswered
  obtain ⟨rfl, rfl⟩ := Prod.mk.inj (Descriptor.eq_of_question?_attach slots)
  rw [Hints.followUps_eq] at hdefined
  have hname : core.name = inner.name := (builds_of_fieldEntry hcore).name_eq
  have hopens := forall₂_opens_ruled hroot inner.name hdefined hruns
  refine ⟨dep, _, _, depends, rfl, hname.trans (Bundle.name_of_attribute? found), hname ▸ hopens,
    ?_, fun page => fields_of_extrasPage⟩
  rw [extrasPage_eq_none, ← List.length_eq_zero_iff, ← hopens.length_eq, List.length_eq_zero_iff]

/-- A question with a field under each of two answers, and a condition of
the caller for the second of them. -/
theorem extras_open_definitions_of_consent :
    let hints : Hints :=
      { Hints.none with
        widget := some "question", answer := some "agree"
        options := some (.object
          [("yes", .array [.string "details"]),
            ("no", .array [.object
              [("an", .string "reason"), ("e", .array [.string "require"])]])]) }
    let request : CompileRequest :=
      { bundle := ⟨"Ebase", [.bare "consent" (.scalar (.reference "Econsent"))], .empty⟩
        dependencies :=
          [⟨"Econsent", [.bare "agree" (.scalar (.primitive .text)),
            .bare "details" (.scalar (.primitive .text)),
            .bare "reason" (.scalar (.primitive .text))], .empty⟩]
        presentation :=
          { bundleDigest := "Ebase", digest := none, languages := ["eng"]
            pages := [⟨none, none, some "main", [.field "consent"]⟩]
            pageOrder := ["main"], pageLabels := .empty
            interactions := [⟨"web", "capture", .ofList [("consent", hints)]⟩] }
        conditionals := .ofList [("consent.reason", .boolean true)]
        readonly := [] }
    let w := request.resolvedWalker default
    let consent := Attribute.bare "consent" (.scalar (.reference "Econsent"))
    ∃ entry answered page dep fields,
      (w.fieldEntry request.bundle .root consent).outcome = .ok entry ∧
      w.question? (Path.root.child "consent") = some hints ∧
      entry.descriptor.question? = some (some answered, some page) ∧
      hints.definitions.map (·.1) = ["yes", "no"] ∧
      List.Forall₂ (w.Opens dep (Path.root.child "consent") "consent.agree") hints.definitions
        fields ∧
      page.fields = fields.map .field := by
  intro hints request w consent
  have hslots : ((w.fieldEntry request.bundle .root consent).outcome.toOption.any fun entry =>
      entry.descriptor.question?.isSome) = true := by decide +kernel
  obtain ⟨entry, hentry, hslots⟩ := (Option.any_eq_true _ _).mp hslots
  obtain ⟨⟨answer, extras⟩, slots⟩ := Option.isSome_iff_exists.mp hslots
  have houtcome := ok_of_toOption hentry
  have asked : w.question? (Path.root.child consent.name) = some hints := by
    have hpath : (Path.root.child consent.name).render = "consent" := by decide +kernel
    have hfound : w.hints? (Path.root.child consent.name) = some hints := by
      rw [hints?, hpath]
      with_unfolding_all rfl
    exact Option.filter_eq_some_iff.mpr ⟨hfound, by decide +kernel⟩
  have htext : ((Path.root.child consent.name).child hints.answerName).render =
      "consent.agree" := by decide +kernel
  obtain ⟨dep, answered, fields, -, rfl, hname, hopens, hnone, hfields⟩ :=
    extras_open_definitions houtcome asked rfl slots
  obtain ⟨page, rfl⟩ := Option.ne_none_iff_exists'.mp (mt hnone.mp (by decide))
  rw [hname, htext] at hopens
  exact ⟨entry, answered, page, dep, fields, houtcome, asked, slots, rfl, hopens, hfields page rfl⟩

end Walker

end FormCompiler
