import FormCompiler.Proofs.SiteOrigins

/-!
# FormCompiler.Proofs.MandatoryAnswers

When the answer of a question may be left out.  The answer is built first
and then made mandatory if the attribute of the question is; at that point
the question itself may still be made mandatory as the answer of another
one, which its own answer no longer sees.

So an answer is optional exactly if its attribute and that of its question
are (`CompileRequest.answer_isOptional`).  A mandatory question has a
mandatory answer wherever it is not an answer itself, while an optional
question that answers a mandatory one keeps an optional answer
(`CompileRequest.optional_answer_of_mandatory`).
-/

namespace FormCompiler

/-- A question is neither a list nor hidden. -/
theorem Descriptor.not_isList_of_asked? {descriptor : Descriptor} {answer : FieldEntry}
    {extras : Option PageNode} (h : descriptor.asked? = some (answer, extras)) :
    descriptor.isList = false ∧ descriptor.isHidden = false := by
  unfold asked? at h
  split at h
  · exact ⟨rfl, rfl⟩
  · exact ⟨rfl, rfl⟩
  · contradiction

namespace Walker

variable {w : Walker} {Placed : Placement → Prop} {bundle : Bundle} {above path : Path}
  {declared : Attribute} {built entry answer : FieldEntry} {extras : Option PageNode}
  {journal : Journal} {site : Site}

theorem Builds.isOptional_eq (h : w.Builds bundle above declared built journal) :
    built.isOptional = declared.isOptional := by
  cases h with
  | plain => simp [entryOf, prefilled]
  | question => simp [entryOf, prefilled]

/-- The answer of a question is placed, and it is as mandatory as its
attribute and that of the question make it. -/
theorem Builds.answer_placed (h : w.Builds bundle above declared built journal)
    (hentry : entry.Restates built) (asks : entry.descriptor.asked? = some (answer, extras)) :
    ∃ inner, w.PlacesField bundle above declared entry
        ⟨(above.child declared.name).child inner.name, inner, answer⟩ ∧
      answer.isOptional = (inner.isOptional && declared.isOptional) := by
  -- The question may have become mandatory since; its answer was made with it as built.
  have hasks := asks
  rw [hentry.descriptor_eq] at hasks
  obtain ⟨hints, digest, dep, inner, core, first, runs, asked, -, depends, found, answered, -, -,
    rfl, -⟩ := h.asked hasks
  refine ⟨inner, .answer asked depends asks found .self, ?_⟩
  rw [answered.isOptional_eq, h.isOptional_eq]

/-- A question and its answer are placed together, and the answer may be left
out if both attributes may. -/
theorem Origin.exists_answer_placed (h : w.Origin Placed path site)
    (hentry : site.item? = some entry) (asks : entry.descriptor.asked? = some (answer, extras)) :
    ∃ attr inner, Placed ⟨path, attr, entry⟩ ∧ Placed ⟨path.child inner.name, inner, answer⟩ ∧
      answer.isOptional = (inner.isOptional && attr.isOptional) ∧
      (site.isAnswer = false → entry.isOptional = attr.isOptional) := by
  obtain ⟨hlist, hvisible⟩ := Descriptor.not_isList_of_asked? asks
  obtain ⟨bundle, above, attr, built, journal, rfl, hbuilds, hrestates, placed, hkeeps⟩ :=
    h.exists_builds hentry hlist hvisible
  obtain ⟨inner, hplaces, hoptional⟩ := hbuilds.answer_placed hrestates asks
  exact ⟨attr, inner, placed _ .self, placed _ hplaces, hoptional,
    fun hnot => (hkeeps hnot).trans hbuilds.isOptional_eq⟩

end Walker

/-! ## compiled forms -/

namespace CompileRequest

variable {request : CompileRequest} {options : CompileOptions} {compiled : CompiledForm}
  {path : Path} {site : Site} {entry answer : FieldEntry} {extras : Option PageNode}

/-- The answer of a question may be left out exactly if its attribute and
that of the question are optional.  So a mandatory question has a mandatory
answer unless both attributes are optional; if the question is no answer
itself, its attribute is as mandatory as it is. -/
theorem answer_isOptional (h : request.compile options = .ok compiled)
    (hsite : (path, site) ∈ compiled.form.sites) (hentry : site.item? = some entry)
    (asks : entry.descriptor.asked? = some (answer, extras)) :
    ∃ attr inner, request.Places options compiled.form ⟨path, attr, entry⟩ ∧
      request.Places options compiled.form ⟨path.child inner.name, inner, answer⟩ ∧
      answer.isOptional = (inner.isOptional && attr.isOptional) ∧
      ((entry.isOptional = false → answer.isOptional = false) ↔
        (entry.isOptional = false → inner.isOptional = false ∨ attr.isOptional = false)) ∧
      (site.isAnswer = false →
        entry.isOptional = attr.isOptional ∧
        (entry.isOptional = false → answer.isOptional = false)) := by
  obtain ⟨attr, inner, hplaced, hanswer, hoptional, hkeeps⟩ :=
    (origin_of_mem_sites h hsite).exists_answer_placed hentry asks
  refine ⟨attr, inner, hplaced, hanswer, hoptional, ?_,
    fun hnot => ⟨hkeeps hnot, fun hmandatory => ?_⟩⟩
  · rw [hoptional, Bool.and_eq_false_iff]
  · rw [hoptional, ← hkeeps hnot, hmandatory, Bool.and_false]

/-- A mandatory question whose answer may be left out by itself. -/
theorem answer_isOptional_of_field :
    let request : CompileRequest :=
      { bundle := ⟨"Eperson",
          [{ Attribute.bare "visit" (.scalar (.reference "Evisit")) with conformance := some "M" }],
          .empty⟩
        dependencies := [⟨"Evisit", [.bare "place" (.scalar (.primitive .text))], .empty⟩]
        presentation :=
          { bundleDigest := "Eperson", digest := none, languages := ["eng"]
            pages := [⟨none, none, some "main", [.field "visit"]⟩]
            pageOrder := ["main"], pageLabels := .empty
            interactions := [⟨"web", "capture", .ofList [("visit",
              { Hints.none with widget := some "question", answer := some "place" })]⟩] }
        conditionals := .empty
        readonly := [] }
    ∃ compiled path site entry answer extras, request.compile default = .ok compiled ∧
      (path, site) ∈ compiled.form.sites ∧ site.item? = some entry ∧
      entry.descriptor.asked? = some (answer, extras) ∧ entry.isOptional = false ∧
      answer.isOptional = false := by
  intro request
  obtain ⟨compiled, ⟨path, site⟩, hcompile, hsite, hfound⟩ :=
    exists_mem_of_compile request default (fun compiled => compiled.form.sites)
      (fun site => !site.2.isAnswer && site.2.item?.any fun entry =>
        !entry.isOptional && entry.descriptor.asked?.isSome) (by decide +kernel)
  simp only [Bool.and_eq_true, Bool.not_eq_true', Option.any_eq_true, Option.isSome_iff_exists]
    at hfound
  obtain ⟨hnot, entry, hentry, hmandatory, ⟨answer, extras⟩, asks⟩ := hfound
  obtain ⟨attr, inner, -, -, -, -, hanswer⟩ := answer_isOptional hcompile hsite hentry asks
  exact ⟨compiled, path, site, entry, answer, extras, hcompile, hsite, hentry, asks, hmandatory,
    (hanswer hnot).2 hmandatory⟩

/-- A question that answers a mandatory one: it has become mandatory, and
its own answer may still be left out. -/
theorem optional_answer_of_mandatory :
    let request : CompileRequest :=
      { bundle := ⟨"Eperson",
          [{ Attribute.bare "visit" (.scalar (.reference "Evisit")) with conformance := some "M" }],
          .empty⟩
        dependencies :=
          [⟨"Evisit", [.bare "place" (.scalar (.reference "Eplace"))], .empty⟩,
            ⟨"Eplace", [.bare "city" (.scalar (.primitive .text))], .empty⟩]
        presentation :=
          { bundleDigest := "Eperson", digest := none, languages := ["eng"]
            pages := [⟨none, none, some "main", [.field "visit"]⟩]
            pageOrder := ["main"], pageLabels := .empty
            interactions := [⟨"web", "capture", .ofList
              [("visit",
                { Hints.none with widget := some "question", answer := some "place" }),
              ("visit.place",
                { Hints.none with widget := some "question", answer := some "city" })]⟩] }
        conditionals := .empty
        readonly := [] }
    ∃ compiled path site entry answer extras, request.compile default = .ok compiled ∧
      (path, site) ∈ compiled.form.sites ∧ site.item? = some entry ∧
      entry.descriptor.asked? = some (answer, extras) ∧ entry.isOptional = false ∧
      answer.isOptional = true := by
  intro request
  obtain ⟨compiled, ⟨path, site⟩, hcompile, hsite, hfound⟩ :=
    exists_mem_of_compile request default (fun compiled => compiled.form.sites)
      (fun site => site.2.item?.any fun entry =>
        !entry.isOptional && entry.descriptor.asked?.any fun parts => parts.1.isOptional)
      (by decide +kernel)
  simp only [Bool.and_eq_true, Bool.not_eq_true', Option.any_eq_true] at hfound
  obtain ⟨entry, hentry, hmandatory, ⟨answer, extras⟩, asks, hanswer⟩ := hfound
  exact ⟨compiled, path, site, entry, answer, extras, hcompile, hsite, hentry, asks, hmandatory,
    hanswer⟩

end CompileRequest

end FormCompiler
