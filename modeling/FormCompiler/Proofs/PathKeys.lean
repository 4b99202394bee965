import FormCompiler.Proofs.SiteOrigins

/-!
# FormCompiler.Proofs.PathKeys

What the path of a place in a form decides.  The names met on the way down
to a place, joined by dots, give the key of its label and find its condition
(`Site.KeyedBy`), and the field that stands there is the one that its
attribute gets under the hints found by the same text
(`CompileRequest.keyed_by_path`).

`Form.sites` reads these names off the form, so the statement does not rest
on the paths that the walk passes along.
-/

namespace FormCompiler

/-! ## descriptors without answers -/

namespace Descriptor

/-- The descriptor without the answer and the further fields of its
question. -/
def unanswered : Descriptor → Descriptor
  | .question _ _ => .question none none
  | .array cardinality (.question _ _) => .array cardinality (.question none none)
  | descriptor => descriptor

@[simp] theorem unanswered_attach (descriptor : Descriptor) (answer : FieldEntry)
    (extras : Option PageNode) :
    (descriptor.attach answer extras).unanswered = descriptor.unanswered := by
  unfold attach
  split <;> rfl

theorem unanswered_of_isFresh {descriptor : Descriptor} (h : descriptor.isFresh = true) :
    descriptor.unanswered = descriptor := by
  unfold unanswered
  split
  · simp_all [isFresh]
  · simp_all [isFresh]
  · rfl

end Descriptor

/-! ## labels and conditions -/

/-- What stands at a place has the label and the condition that a dotted
text keys.  A further field of a question keeps the rule of the answer if
there is no condition for it; lists and identifiers have no condition. -/
def Site.KeyedBy (conditionals : Dictionary Json) (text : String) : Site → Prop
  | .page node => node.condition = conditionals.find? text
  | .field entry | .answer entry =>
    entry.label = some (text ++ ".label") ∧ entry.condition = conditionals.find? text
  | .extra entry =>
    entry.label = some (text ++ ".label") ∧
      ∀ condition, conditionals.find? text = some condition → entry.condition = some condition
  | .list entry => entry.label = some (text ++ ".label") ∧ entry.condition = none
  | .identifier entry => entry.label = none ∧ entry.condition = none

namespace Walker

variable {w : Walker} {Placed : Placement → Prop} {bundle : Bundle} {above path : Path}
  {declared : Attribute} {built : FieldEntry} {journal : Journal} {site : Site}

/-- A field stands under the condition for its path. -/
theorem Builds.condition_eq (h : w.Builds bundle above declared built journal) :
    built.condition = w.condition? (above.child declared.name) := by
  cases h with
  | plain => rfl
  | question => rfl

/-- Without the parts of its question, an entry is described by its
prefilled attribute. -/
theorem Builds.unanswered_eq (h : w.Builds bundle above declared built journal) :
    w.plainDescriptor above declared = .ok built.descriptor.unanswered := by
  cases h with
  | plain unasked described =>
      rw [descriptor_entryOf,
        Descriptor.unanswered_of_isFresh (Attribute.isFresh_of_descriptor described)]
      exact described
  | question asked refers described =>
      rw [descriptor_entryOf, Descriptor.unanswered_attach,
        Descriptor.unanswered_of_isFresh (Attribute.isFresh_of_descriptor described)]
      exact described

/-- The caller's condition for a further field goes before the rule of the
answer. -/
theorem condition_ruled {run : FollowUpRun} (answer : Path)
    (h : w.Builds bundle above run.attr run.entry run.journal) {condition : Json}
    (hcondition : w.condition? (above.child run.attr.name) = some condition) :
    (w.ruled above answer run).condition = some condition := by
  have hcontains : w.conditionals.contains (above.child run.entry.name).render = true := by
    rw [h.name_eq, Dictionary.contains, Option.isSome_iff_exists]
    exact ⟨condition, hcondition⟩
  rw [ruled, if_pos hcontains, h.condition_eq, hcondition]

/-- Whatever part a site plays, its label and its condition go by its path. -/
theorem Origin.keyedBy (h : w.Origin Placed path site) :
    site.KeyedBy w.conditionals path.render := by
  cases h with
  | page => rfl
  | field built placed =>
      exact ⟨built.label_eq.trans (by rw [label_key_child]), built.condition_eq⟩
  | answer built placed =>
      exact ⟨built.label_eq.trans (by rw [label_key_child]), built.condition_eq⟩
  | extra built placed =>
      exact ⟨(restates_ruled _ _).label_eq.trans (built.label_eq.trans (by rw [label_key_child])),
        fun condition => condition_ruled _ built⟩
  | list identified inside placed => exact ⟨by rw [listOf, label_key_child], rfl⟩
  | identifier requested => exact ⟨rfl, rfl⟩

/-- An entry that is neither a list nor hidden is the field of an attribute
that is placed there. -/
theorem Origin.described (h : w.Origin Placed path site) {entry : FieldEntry}
    (hentry : site.item? = some entry) (hlist : entry.isList = false)
    (hvisible : entry.descriptor.isHidden = false) :
    ∃ attr, Placed ⟨path, attr, entry⟩ ∧
      (attr.prefilled (.ofHints? (w.hints? path))).descriptor (.ofHints? (w.hints? path)) w.now =
        .ok entry.descriptor.unanswered := by
  obtain ⟨bundle, above, attr, built, journal, rfl, hbuilds, hrestates, placed, -⟩ :=
    h.exists_builds hentry hlist hvisible
  rw [hrestates.descriptor_eq]
  exact ⟨attr, placed _ .self, hbuilds.unanswered_eq⟩

end Walker

/-! ## compiled forms -/

namespace CompileRequest

variable {request : CompileRequest} {options : CompileOptions} {compiled : CompiledForm}
  {path : Path} {site : Site}

/-- The names met on the way down to a place, joined by dots, key its label
and its condition, and the hints that its field is made from. -/
theorem keyed_by_path (h : request.compile options = .ok compiled)
    (hsite : (path, site) ∈ compiled.form.sites) :
    site.KeyedBy request.conditionals path.render ∧
    ∀ entry, site.item? = some entry → entry.isList = false →
      entry.descriptor.isHidden = false →
      ∃ attr, request.Places options compiled.form ⟨path, attr, entry⟩ ∧
        (attr.prefilled (.ofHints? (request.hints? path))).descriptor
            (.ofHints? (request.hints? path)) options.referenceTime =
          .ok entry.descriptor.unanswered := by
  have horigin := origin_of_mem_sites h hsite
  exact ⟨horigin.keyedBy, fun entry hentry hlist hvisible =>
    horigin.described hentry hlist hvisible⟩

/-- The answer of a question within a section. -/
theorem keyed_by_path_of_answer :
    let request : CompileRequest :=
      { bundle := ⟨"Eperson", [.bare "visit" (.scalar (.reference "Evisit"))], .empty⟩
        dependencies := [⟨"Evisit", [.bare "place" (.scalar (.primitive .text))], .empty⟩]
        presentation :=
          { bundleDigest := "Eperson", digest := none, languages := ["eng"]
            pages := [⟨none, none, some "main", [.page ⟨none, none, some "more",
              [.field "visit"]⟩]⟩]
            pageOrder := ["main"], pageLabels := .empty
            interactions := [⟨"web", "capture", .ofList [("more.visit",
              { Hints.none with widget := some "question", answer := some "place" })]⟩] }
        conditionals := .ofList [("more.visit.place", .boolean true)]
        readonly := [] }
    ∃ compiled answer, request.compile default = .ok compiled ∧
      (Path.parse "more.visit.place", .answer answer) ∈ compiled.form.sites ∧
      answer.label = some ("more.visit.place" ++ ".label") ∧
      answer.condition = some (.boolean true) := by
  intro request
  obtain ⟨compiled, ⟨path, site⟩, hcompile, hsite, hfound⟩ :=
    exists_mem_of_compile request default (fun compiled => compiled.form.sites)
      (fun site => site.1 == Path.parse "more.visit.place" && site.2.isAnswer) (by decide +kernel)
  obtain ⟨rfl, hanswer⟩ : path = Path.parse "more.visit.place" ∧ site.isAnswer = true := by
    simpa using hfound
  obtain ⟨answer, rfl⟩ := Site.isAnswer_iff.mp hanswer
  obtain ⟨hlabel, hcondition⟩ := (keyed_by_path hcompile hsite).1
  rw [Path.render_parse] at hlabel hcondition
  exact ⟨compiled, answer, hcompile, hsite, hlabel, hcondition.trans rfl⟩

end CompileRequest

end FormCompiler
