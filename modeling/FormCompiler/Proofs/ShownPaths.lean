import FormCompiler.Proofs.SharedKeys

/-!
# FormCompiler.Proofs.ShownPaths

Which paths have an entry in a compiled form, read off the presentation and
the bundles alone (`CompileRequest.mem_located_iff`), and which keys of the
dictionaries belong to them.  Every text is recorded for an attribute that
is visited, but an attribute with an entry set becomes a choice, and what
its question asks for is built, recorded and left out of the form.  So a key
has an entry in the form exactly if its path is shown, and all keys have one
except below such a question (`CompileRequest.recorded_key_shown_iff`).
-/

namespace FormCompiler

/-! ## keys of a path -/

/-- The key is one of those under which texts of what stands at the path are
recorded. -/
def Path.HasKey (path : Path) (key : String) : Prop :=
  ∃ property : TextProperty, key = path.key property.name

/-- Recording an attribute puts texts under the keys of the properties that
have one. -/
theorem Attribute.isSome_textAt?_iff {attr : Attribute} {lang key : String} {path : Path} :
    (attr.textAt? lang path key).isSome ↔
      ∃ property : TextProperty, key = path.key property.name ∧
        (attr.text? lang property).isSome := by
  constructor
  · intro h
    rw [textAt?_eq, Option.isSome_or, Option.isSome_or, Bool.or_eq_true, Bool.or_eq_true] at h
    have hproperty : ∀ property : TextProperty,
        (if key = path.key property.name then attr.text? lang property else none).isSome →
        ∃ property : TextProperty, key = path.key property.name ∧
          (attr.text? lang property).isSome := by
      intro property hsome
      split at hsome
      · next hkey => exact ⟨property, hkey, hsome⟩
      · contradiction
    obtain hentries | hplaceholder | hlabel := h
    · exact hproperty _ hentries
    · exact hproperty _ hplaceholder
    · exact hproperty _ hlabel
  · rintro ⟨property, rfl, hsome⟩
    rwa [textAt?_key, if_pos rfl]

/-! ## questions about attributes with an entry set -/

namespace Attribute

variable {attr : Attribute} {props : WidgetProperties} {digest : String}

/-- A reference is not prefilled. -/
theorem prefilled_of_refers (refers : attr.type.base = .reference digest) :
    attr.prefilled props = attr := by
  rw [prefilled, if_neg (by simp [refers])]

/-- A reference under the question widget becomes a question, without answer at
first. -/
theorem scalarDescriptor_question (refers : attr.type.base = .reference digest)
    (asks : props.widget = some .question) (now : Timestamp) :
    attr.scalarDescriptor props now = .ok (.question none none) := by
  rw [scalarDescriptor, refers, asks]

/-- A reference under a question widget takes an answer, unless its entry
set makes it a choice. -/
theorem attach_of_question {now : Timestamp} {descriptor : Descriptor}
    (refers : attr.type.base = .reference digest) (asks : props.widget = some .question)
    (described : attr.descriptor props now = .ok descriptor) :
    (attr.entries = none ∧
        ∀ answer extras, (descriptor.attach answer extras).asked? = some (answer, extras)) ∨
      (attr.entries ≠ none ∧ ∀ answer extras, (descriptor.attach answer extras).IsPlain) := by
  have hplain := isPlain_of_descriptor described
  rw [Attribute.descriptor] at described
  cases hentries : attr.entries with
  | some entries =>
      rw [hentries] at described
      obtain rfl := Except.ok.inj described
      exact .inr ⟨Option.some_ne_none _, fun _ _ => hplain⟩
  | none =>
      rw [hentries] at described
      dsimp only at described
      have hsingle : ∀ single : Attribute, single.type.base = attr.type.base →
          single.scalarDescriptor props now = .ok (.question none none) :=
        fun single hbase => scalarDescriptor_question (hbase.trans refers) asks now
      refine .inl ⟨rfl, fun answer extras => ?_⟩
      split at described
      · rw [if_neg (by simp [refers]),
          hsingle { attr with type := attr.type.element, entries := none } rfl] at described
        obtain rfl := Except.ok.inj described
        rfl
      · rw [hsingle _ rfl] at described
        obtain rfl := Except.ok.inj described
        rfl

end Attribute

namespace Walker

/-- What is asked as a question has the widget of one. -/
theorem widget_of_question? {w : Walker} {path : Path} {hints : Hints}
    (h : w.question? path = some hints) :
    (WidgetProperties.ofHints? (w.hints? path)).widget = some .question := by
  obtain ⟨hhints, hquestion⟩ := Option.filter_eq_some_iff.mp h
  rw [hhints]
  simpa [Hints.isQuestion, WidgetProperties.uses, WidgetProperties.ofHints?] using hquestion

theorem exists_question?_of_widget {w : Walker} {path : Path}
    (h : (WidgetProperties.ofHints? (w.hints? path)).widget = some .question) :
    ∃ hints, w.question? path = some hints := by
  cases hhints : w.hints? path with
  | none =>
      rw [hhints] at h
      cases h
  | some hints =>
      rw [hhints] at h
      exact ⟨hints, Option.filter_eq_some_iff.mpr ⟨hhints, beq_iff_eq.mpr h⟩⟩

/-! ## paths shown by a field -/

/-- The question of an attribute below a path asks for an attribute of the
bundle `dep`, as its answer or as a field that an answer opens. -/
def Asks (w : Walker) (bundle : Bundle) (above : Path) (attr : Attribute) (dep : Bundle)
    (inner : Attribute) : Prop :=
  ∃ hints digest, w.question? (above.child attr.name) = some hints ∧
    attr.type.reference? = some digest ∧ w.dependency? bundle attr.name = some dep ∧
    (dep.attribute? hints.answerName = some inner ∨
      ∃ followUp ∈ hints.followUps, dep.attribute? followUp.name = some inner)

/-- The field of an attribute below a path shows a path: its own, or one
within what its question asks for.  An attribute with an entry set becomes a
choice, which has no place for an answer. -/
inductive ShowsField (w : Walker) : Bundle → Path → Attribute → Path → Prop
  | self {bundle above attr} : ShowsField w bundle above attr (above.child attr.name)
  | part {bundle above attr dep inner path}
      (asks : w.Asks bundle above attr dep inner) (entryless : attr.entries = none)
      (inside : ShowsField w dep (above.child attr.name) inner path) :
      ShowsField w bundle above attr path

/-- The question at a path is about an attribute that its entry set makes a
choice, so its answer is dropped. -/
def DropsAnswer (w : Walker) (path : Path) (attr : Attribute) : Prop :=
  (w.question? path).isSome ∧ attr.type.reference?.isSome ∧ attr.entries ≠ none

section Fields

variable {w : Walker} {bundle dep : Bundle} {above path : Path} {attr : Attribute}
  {entry built : FieldEntry} {journal : Journal}

/-- What is visited within the answer of a question is visited within the
question. -/
theorem Asks.visitsField {inner visited : Attribute} (h : w.Asks bundle above attr dep inner)
    (inside : w.VisitsField dep (above.child attr.name) inner path visited) :
    w.VisitsField bundle above attr path visited := by
  obtain ⟨hints, digest, asked, refers, depends, found | ⟨followUp, opened, found⟩⟩ := h
  · exact .answer asked refers depends found inside
  · exact .followUp asked refers depends opened found inside

/-- Whatever is visited within a field stands at its path or below. -/
theorem VisitsField.prefix_segments {visited : Attribute}
    (h : w.VisitsField bundle above attr path visited) :
    (above.child attr.name).segments <+: path.segments := by
  induction h with
  | self => exact List.prefix_rfl
  | answer _ _ _ _ _ ih => exact (List.prefix_append _ _).trans ih
  | followUp _ _ _ _ _ _ ih => exact (List.prefix_append _ _).trans ih

/-- A path visited within a question is shown if the attribute has no entry
set and the path is shown within the question; otherwise an answer is
dropped on the way to it. -/
theorem Asks.shows_or {inner visited : Attribute} (h : w.Asks bundle above attr dep inner)
    (inside : w.VisitsField dep (above.child attr.name) inner path visited)
    (ih : w.ShowsField dep (above.child attr.name) inner path ∨
      ∃ place asked, w.VisitsField dep (above.child attr.name) inner place asked ∧
        w.DropsAnswer place asked ∧ place.segments <+: path.segments) :
    w.ShowsField bundle above attr path ∨
      ∃ place asked, w.VisitsField bundle above attr place asked ∧
        w.DropsAnswer place asked ∧ place.segments <+: path.segments := by
  by_cases entryless : attr.entries = none
  · rcases ih with hshows | ⟨place, asked, hvisits, hdrops, hprefix⟩
    · exact .inl (.part h entryless hshows)
    · exact .inr ⟨place, asked, h.visitsField hvisits, hdrops, hprefix⟩
  · have hprefix := (h.visitsField inside).prefix_segments
    obtain ⟨hints, digest, asked, refers, -⟩ := h
    exact .inr ⟨_, attr, .self, ⟨by simp [asked], by simp [refers], entryless⟩, hprefix⟩

/-- Every attribute visited is shown, or an answer is dropped on the way to
it. -/
theorem VisitsField.shows_or {visited : Attribute}
    (h : w.VisitsField bundle above attr path visited) :
    w.ShowsField bundle above attr path ∨
      ∃ place asked, w.VisitsField bundle above attr place asked ∧
        w.DropsAnswer place asked ∧ place.segments <+: path.segments := by
  induction h with
  | self => exact .inl .self
  | answer asked refers depends found inside ih =>
      exact Asks.shows_or ⟨_, _, asked, refers, depends, .inl found⟩ inside ih
  | followUp asked refers depends opened found inside ih =>
      exact Asks.shows_or ⟨_, _, asked, refers, depends, .inr ⟨_, opened, found⟩⟩ inside ih

/-- A field shows its own path, and those within its answer unless it has an
entry set. -/
theorem showsField_iff : w.ShowsField bundle above attr path ↔
    path = above.child attr.name ∨ attr.entries = none ∧ ∃ dep inner,
      w.Asks bundle above attr dep inner ∧
      w.ShowsField dep (above.child attr.name) inner path := by
  constructor
  · intro h
    cases h with
    | self => exact .inl rfl
    | part asks entryless inside => exact .inr ⟨entryless, _, _, asks, inside⟩
  · rintro (rfl | ⟨entryless, dep, inner, asks, inside⟩)
    · exact .self
    · exact .part asks entryless inside

/-- The entries within a field stand at the paths that it shows. -/
theorem Builds.mem_located_iff (h : w.Builds bundle above attr built journal)
    (hentry : entry.Restates built) :
    (∃ located, (path, located) ∈ entry.located above) ↔ w.ShowsField bundle above attr path := by
  induction h generalizing entry path with
  | @plain bundle above attr descriptor unasked described =>
      have hbuilt : w.Builds bundle above attr _ _ := .plain unasked described
      have hplain := Attribute.isPlain_of_descriptor described
      have hnot : ∀ dep inner, ¬ w.Asks bundle above attr dep inner := by
        rintro dep inner ⟨hints, digest, asked, refers, -⟩
        rcases unasked with hnone | hnone <;> simp_all
      rw [FieldEntry.located_eq, hbuilt.placedAt_eq hentry, showsField_iff]
      obtain ⟨isOptional, condition, rfl⟩ := hentry
      simp [entryOf, hplain.located, hnot]
  | @question bundle above attr descriptor hints digest dep inner answer answerJournal runs asked
      refers described depends answerAttr answered followUps followUpAttrs followed ihAnswer
      ihFollowed =>
      have hbuilt := Builds.question asked refers described depends answerAttr answered followUps
        followUpAttrs followed
      have hrefers := AttributeType.reference?_eq_some_iff.mp refers
      rw [FieldEntry.located_eq, hbuilt.placedAt_eq hentry, showsField_iff]
      obtain ⟨isOptional, condition, rfl⟩ := hentry
      rw [plainDescriptor, prefilled, Attribute.prefilled_of_refers hrefers] at described
      -- With an entry set the parts were built all the same, but nothing holds
      -- them; without one the descriptor is the question.
      obtain ⟨entryless, asks⟩ | ⟨listed, hplain⟩ :=
        Attribute.attach_of_question hrefers (widget_of_question? asked) described
      · rw [entryOf, Descriptor.located_of_asked? (asks _ _), located_extrasPage]
        simp only [List.mem_cons, List.mem_append, List.mem_flatMap]
        constructor
        · rintro ⟨located, hself | hanswer | ⟨extra, hextra, hmem⟩⟩
          · exact .inl (Prod.mk.inj hself).1
          · exact .inr ⟨entryless, dep, inner, ⟨hints, digest, asked, refers, depends,
              .inl answerAttr⟩, (ihAnswer ⟨_, _, rfl⟩).mp ⟨located, hanswer⟩⟩
          · obtain ⟨run, hrun, rfl⟩ := List.mem_map.mp hextra
            have hopened := followUps ▸ List.mem_map_of_mem hrun
            exact .inr ⟨entryless, dep, run.attr, ⟨hints, digest, asked, refers, depends,
              .inr ⟨run.followUp, hopened, followUpAttrs run hrun⟩⟩,
              (ihFollowed run hrun (restates_ruled _ run)).mp ⟨located, hmem⟩⟩
        · rintro (rfl | ⟨-, dep', inner', ⟨hints', digest', asked', refers', depends', found⟩,
            inside⟩)
          · exact ⟨_, .inl rfl⟩
          · obtain rfl := Option.some.inj (asked.symm.trans asked')
            obtain rfl := Option.some.inj (depends.symm.trans depends')
            rcases found with found | ⟨followUp, opened, found⟩
            · obtain rfl := Option.some.inj (answerAttr.symm.trans found)
              obtain ⟨located, hmem⟩ := (ihAnswer ⟨_, _, rfl⟩).mpr inside
              exact ⟨located, .inr (.inl hmem)⟩
            · rw [← followUps, List.mem_map] at opened
              obtain ⟨run, hrun, rfl⟩ := opened
              obtain rfl := Option.some.inj ((followUpAttrs run hrun).symm.trans found)
              obtain ⟨located, hmem⟩ := (ihFollowed run hrun (restates_ruled _ run)).mpr inside
              exact ⟨located, .inr (.inr ⟨_, List.mem_map_of_mem hrun, hmem⟩)⟩
      · simp [entryOf, (hplain _ _).located, listed]

end Fields

/-! ## paths shown by a page -/

/-- A list shows its own path, and that of the hidden field for its items. -/
def ShowsList (w : Walker) (list path : Path) : Prop :=
  path = list ∨ (w.identifierRequest? list).isSome ∧ path = list.child IdentifierTree.identifierKey

/-- An entry of a page shows a path by itself, apart from what stands in its
section: a name by the field of its attribute, the page of an array by its
list. -/
def ShowsEntry (w : Walker) (path : Path) : PageEntry → Bundle → Path → Prop
  | .field name, owner, place =>
    ∃ attr, owner.attribute? name = some attr ∧ w.ShowsField owner place attr path
  | .page spec, owner, place =>
    ∃ address attr, spec.address = .ok address ∧ (∀ name, address ≠ .synthetic name) ∧
      owner.attribute? address.name = some attr ∧ attr.type.isArray = true ∧
      w.ShowsList (place.child address.name) path

section Pages

variable {w : Walker} {entries : List PageEntry} {bundle : Bundle} {above path : Path}
  {nodes : List Node} {journal : Journal} {spec : PageSpec}

/-- A name shows what the field of its attribute shows. -/
theorem showsEntry_field_iff {name : String} {attr : Attribute}
    (found : bundle.attribute? name = some attr) :
    w.ShowsEntry path (.field name) bundle above ↔ w.ShowsField bundle above attr path := by
  simp [ShowsEntry, found]

theorem not_showsEntry_synthetic {name : String}
    (addressed : spec.address = .ok (.synthetic name)) :
    ¬ w.ShowsEntry path (.page spec) bundle above := by
  rintro ⟨address, attr, addressed', embeds, -⟩
  exact embeds name (Except.ok.inj (addressed'.symm.trans addressed))

/-- The page of an array shows the list and its identifier, and that of a
single reference nothing by itself. -/
theorem showsEntry_embedded_iff {address : PageAddress} {attr : Attribute}
    (addressed : spec.address = .ok address) (embeds : ∀ name, address ≠ .synthetic name)
    (found : bundle.attribute? address.name = some attr) :
    w.ShowsEntry path (.page spec) bundle above ↔
      attr.type.isArray = true ∧ w.ShowsList (above.child address.name) path := by
  constructor
  · rintro ⟨address', attr', addressed', -, found', array, hlist⟩
    obtain rfl := Except.ok.inj (addressed.symm.trans addressed')
    obtain rfl := Option.some.inj (found.symm.trans found')
    exact ⟨array, hlist⟩
  · rintro ⟨array, hlist⟩
    exact ⟨address, attr, addressed, embeds, found, array, hlist⟩

/-- The hidden field of a list stands below its path, if it is requested. -/
theorem mem_located_listIdentifier_iff {identifier : Option FieldEntry}
    (h : w.listIdentifier above = ⟨.ok identifier, journal⟩) :
    (∃ located, (path, located) ∈ Node.located above (identifier.toList.map .field)) ↔
      (w.identifierRequest? above).isSome ∧
        path = above.child IdentifierTree.identifierKey := by
  obtain ⟨hrequest, rfl, -⟩ | ⟨hints, ident, hrequest, -, rfl, -⟩ := listIdentifier_cases h
  · simp [Node.located, hrequest]
  · rw [Node.located_map_field, Option.toList_some, List.flatMap_singleton,
      FieldEntry.located_eq]
    simp [identifierEntry, Descriptor.located, hrequest, FieldEntry.placedAt, FieldEntry.isList,
      Descriptor.isList]

/-- The entries within a page stand at the paths that the entries met on it
show. -/
theorem Fills.mem_located_iff (h : w.Fills entries bundle above nodes journal) :
    (∃ located, (path, located) ∈ Node.located above nodes) ↔
      w.MeetsSome (w.ShowsEntry path) entries bundle above := by
  induction h with
  | nil => simp [Node.located, not_meetsSome_nil]
  | field found built others ih =>
      simp only [Node.located, List.mem_append, exists_or]
      rw [built.mem_located_iff (.refl _), ih, meetsSome_field_iff, showsEntry_field_iff found]
  | synthetic addressed inside others ihInside ihOthers =>
      simp only [Node.located, PageNode.located_eq, List.mem_append, exists_or]
      rw [meetsSome_synthetic_iff addressed, or_iff_right (not_showsEntry_synthetic addressed),
        ← ihInside, ← ihOthers]
      rfl
  | embedded addressed embeds found refers scalar depends inside others ihInside ihOthers =>
      simp only [Node.located, PageNode.located_eq, List.mem_append, exists_or]
      rw [meetsSome_embedded_iff addressed embeds depends,
        showsEntry_embedded_iff addressed embeds found, ← ihInside, ← ihOthers]
      simp only [scalar, Bool.false_eq_true, false_and, false_or]
      rfl
  | list addressed embeds found refers array depends identified inside others ihInside ihOthers =>
      rw [meetsSome_embedded_iff addressed embeds depends,
        showsEntry_embedded_iff addressed embeds found, ← ihInside, ← ihOthers, ShowsList,
        ← mem_located_listIdentifier_iff identified]
      simp only [sectionNode, Node.located, PageNode.located_eq, located_listOf, List.append_nil,
        List.mem_append, List.mem_cons, exists_or, Prod.mk.injEq, exists_eq_right, array,
        true_and, or_assoc]
      -- The hidden field stands behind the elements.
      exact or_congr_right or_left_comm

/-- Over all pages, an entry stands just at the paths that an entry of the
presentation shows. -/
theorem FillsPages.mem_located_iff {names : List String} {pages : List PageNode}
    (h : w.FillsPages bundle names pages journal) :
    (∃ located, ∃ page ∈ pages, (path, located) ∈ Node.located .root page.fields) ↔
      ∃ name ∈ names, ∃ spec, w.presentation.findPage? name = some spec ∧
        w.MeetsSome (w.ShowsEntry path) spec.entries bundle .root := by
  induction h with
  | nil => simp
  | missing missing others ih => simp [missing, ih]
  | page found addressed inside others ih =>
      simp only [List.exists_mem_cons_iff, exists_or, inside.mem_located_iff, ih, found,
        Option.some.injEq, exists_eq_left']

end Pages

end Walker

/-! ## paths shown by a form -/

namespace CompileRequest

/-- A compilation shows a path: it meets an entry of a page that does. -/
def Shows (request : CompileRequest) (options : CompileOptions) (path : Path) : Prop :=
  ∃ entry owner place, request.Meets options entry owner place ∧
    (request.resolvedWalker options).ShowsEntry path entry owner place

variable {request : CompileRequest} {options : CompileOptions} {compiled : CompiledForm}
  {lang : String}

/-- A compiled form has entries at the paths shown, and at no others. -/
theorem mem_located_iff (h : request.compile options = .ok compiled) {path : Path} :
    (∃ entry, (path, entry) ∈ compiled.form.located) ↔ request.Shows options path := by
  obtain ⟨-, journal, hfills, -, -⟩ := compile_eq_ok h
  simp only [Form.located, List.mem_flatMap]
  rw [hfills.mem_located_iff]
  exact exists_meets_iff.symm

/-- Every attribute visited is shown, or an answer is dropped on the way to
it. -/
theorem Visits.shows_or {path : Path} {attr : Attribute} (h : request.Visits options path attr) :
    request.Shows options path ∨
      ∃ place asked, request.Visits options place asked ∧
        (request.resolvedWalker options).DropsAnswer place asked ∧
        place.segments <+: path.segments := by
  obtain ⟨entry, owner, place, hmeets, hentry⟩ := visits_iff_meets.mp h
  cases entry with
  | page spec => exact hentry.elim
  | field name =>
      obtain ⟨declared, found, hvisits⟩ := hentry
      rcases hvisits.shows_or with hshows | ⟨within, asked, hwithin, hdrops, hprefix⟩
      · exact .inl ⟨_, owner, place, hmeets, declared, found, hshows⟩
      · refine .inr ⟨within, asked, ?_, hdrops, hprefix⟩
        exact visits_iff_meets.mpr ⟨_, owner, place, hmeets, declared, found, hwithin⟩

/-- Every key that is recorded is one of an attribute that is visited.  It
has an entry in the form exactly if it is one of a path that is shown; if it
has none, then it is one of a path at which or above which a question drops
its answer, because the attribute has an entry set. -/
theorem recorded_key_shown_iff (h : request.compile options = .ok compiled)
    (hlang : lang ∈ request.presentation.languages) :
    ∃ locale, compiled.locales.find? lang = some locale ∧
      ∀ key, locale.attributes.contains key = true →
        (∃ path attr property, request.Visits options path attr ∧
          key = path.key (TextProperty.name property) ∧
          ((request.prefilled path attr).text? lang property).isSome) ∧
        ((∃ path entry, (path, entry) ∈ compiled.form.located ∧ path.HasKey key) ↔
          ∃ path, request.Shows options path ∧ path.HasKey key) ∧
        ((∃ path entry, (path, entry) ∈ compiled.form.located ∧ path.HasKey key) ∨
          ∃ (path place : Path) (asked : Attribute), path.HasKey key ∧
            request.Visits options place asked ∧
            (request.resolvedWalker options).DropsAnswer place asked ∧
            place.segments <+: path.segments) := by
  obtain ⟨journal, locale, hfills, hlocale, hkeys⟩ := find?_locales h hlang
  refine ⟨locale, hlocale, fun key hkey => ?_⟩
  have hshown : (∃ path entry, (path, entry) ∈ compiled.form.located ∧ path.HasKey key) ↔
      ∃ path, request.Shows options path ∧ path.HasKey key := by
    simp only [← mem_located_iff h, exists_and_right]
  have hvisited : ∃ path attr property, request.Visits options path attr ∧
      key = path.key (TextProperty.name property) ∧
      ((request.prefilled path attr).text? lang property).isSome := by
    rw [Dictionary.contains, hkeys, List.findSome?_isSome_iff] at hkey
    obtain ⟨entry, hentry, htext⟩ := hkey
    rw [List.mem_reverse] at hentry
    -- Of all lines only those of attributes write below `attributes`.
    cases entry with
    | attributeTexts path attr =>
        obtain ⟨visited, hvisits, rfl⟩ := hfills.mem_journal_iff.mp hentry
        obtain ⟨property, hkey, hsome⟩ := Attribute.isSome_textAt?_iff.mp htext
        exact ⟨path, visited, property, hvisits, hkey, hsome⟩
    | title | bundleTexts | identifier | notice => simp [JournalEntry.textAt?] at htext
  refine ⟨hvisited, hshown, ?_⟩
  obtain ⟨path, attr, property, hvisits, hproperty, -⟩ := hvisited
  rcases hvisits.shows_or with hshows | ⟨place, asked, hplace, hdrops, hprefix⟩
  · exact .inl (hshown.mpr ⟨path, hshows, property, hproperty⟩)
  · exact .inr ⟨path, place, asked, ⟨property, hproperty⟩, hplace, hdrops, hprefix⟩

/-- A question and its answer, both in the form: the label of the answer has
an entry. -/
theorem recorded_key_shown_iff_of_question :
    let agree : Attribute := { Attribute.bare "agree" (.scalar (.primitive .boolean)) with
      labels := .ofList [("eng", "Agree")] }
    let consent : Attribute := Attribute.bare "consent" (.scalar (.reference "Econsent"))
    let request : CompileRequest :=
      { bundle := ⟨"Eperson", [consent], .empty⟩
        dependencies := [⟨"Econsent", [agree], .empty⟩]
        presentation :=
          { bundleDigest := "Eperson", digest := none, languages := ["eng"]
            pages := [⟨none, none, some "main", [.field "consent"]⟩]
            pageOrder := ["main"], pageLabels := .empty
            interactions := [⟨"web", "capture", .ofList [("consent",
              { Hints.none with widget := some "question", answer := some "agree" })]⟩] }
        conditionals := .empty
        readonly := [] }
    ∃ compiled locale path entry, request.compile default = .ok compiled ∧
      compiled.locales.find? "eng" = some locale ∧
      locale.attributes.contains "consent.agree.label" = true ∧
      (path, entry) ∈ compiled.form.located ∧ path.HasKey "consent.agree.label" := by
  intro agree consent request
  have hrecorded : ((request.compile default).toOption.bind fun compiled =>
      (compiled.locales.find? "eng").map (·.attributes.contains "consent.agree.label")) =
        some true := by decide +kernel
  obtain ⟨compiled, hcompiled, hlocale⟩ := Option.bind_eq_some_iff.mp hrecorded
  obtain ⟨locale, hlocale, hcontains⟩ := Option.map_eq_some_iff.mp hlocale
  have hcompile := ok_of_toOption hcompiled
  obtain ⟨locale', hlocale', hkeys⟩ :=
    recorded_key_shown_iff hcompile (List.mem_singleton_self "eng")
  obtain rfl := Option.some.inj (hlocale.symm.trans hlocale')
  obtain ⟨hints, asked, hanswer⟩ := Option.map_eq_some_iff.mp
    (show ((request.resolvedWalker default).question? ⟨["consent"]⟩).map Hints.answerName =
      some "agree" by decide +kernel)
  have hasks : (request.resolvedWalker default).Asks request.bundle .root consent
      ⟨"Econsent", [agree], .empty⟩ agree :=
    ⟨hints, "Econsent", asked, rfl, by decide +kernel, .inl (hanswer ▸ rfl)⟩
  have hshows : request.Shows default ⟨["consent", "agree"]⟩ :=
    ⟨.field "consent", request.bundle, .root, ⟨"main", List.mem_singleton_self _, _, rfl, .here⟩,
      consent, rfl, .part hasks rfl .self⟩
  obtain ⟨path, entry, hlocated, hpath⟩ := (hkeys _ hcontains).2.1.mpr
    ⟨_, hshows, .label, by decide⟩
  exact ⟨compiled, locale, path, entry, hcompile, hlocale, hcontains, hlocated, hpath⟩

/-- A question about an attribute with an entry set: the label of its answer
is recorded, and the form holds a choice alone. -/
theorem answer_label_without_entry :
    let agree : Attribute := { Attribute.bare "agree" (.scalar (.primitive .boolean)) with
      labels := .ofList [("eng", "Agree")] }
    let consent : Attribute := { Attribute.bare "consent" (.scalar (.reference "Econsent")) with
      entryCodes := some (.flat ["yes"])
      entries := some (.ofList [("eng", .ofList [("yes", "Yes")])]) }
    let request : CompileRequest :=
      { bundle := ⟨"Eperson", [consent], .empty⟩
        dependencies := [⟨"Econsent", [agree], .empty⟩]
        presentation :=
          { bundleDigest := "Eperson", digest := none, languages := ["eng"]
            pages := [⟨none, none, some "main", [.field "consent"]⟩]
            pageOrder := ["main"], pageLabels := .empty
            interactions := [⟨"web", "capture", .ofList [("consent",
              { Hints.none with widget := some "question", answer := some "agree" })]⟩] }
        conditionals := .empty
        readonly := [] }
    ∃ compiled locale, request.compile default = .ok compiled ∧
      "eng" ∈ request.presentation.languages ∧ compiled.locales.find? "eng" = some locale ∧
      locale.attributes.contains "consent.agree.label" = true ∧
      ∀ path entry, (path, entry) ∈ compiled.form.located →
        ¬ path.HasKey "consent.agree.label" := by
  intro agree consent request
  have hdropped : ((request.compile default).toOption.bind fun compiled =>
      (compiled.locales.find? "eng").map fun locale =>
        (locale.attributes.contains "consent.agree.label",
          compiled.form.located.map fun located => located.1)) =
        some (true, [⟨["consent"]⟩]) := by decide +kernel
  obtain ⟨compiled, hcompiled, hlocale⟩ := Option.bind_eq_some_iff.mp hdropped
  obtain ⟨locale, hlocale, hboth⟩ := Option.map_eq_some_iff.mp hlocale
  obtain ⟨hcontains, hpaths⟩ := Prod.mk.inj hboth
  refine ⟨compiled, locale, ok_of_toOption hcompiled, List.mem_singleton_self _, hlocale,
    hcontains, fun path entry hlocated => ?_⟩
  have hpath : path ∈ compiled.form.located.map fun located => located.1 :=
    List.mem_map_of_mem hlocated
  rw [hpaths, List.mem_singleton] at hpath
  subst hpath
  rintro ⟨property, hkey⟩
  revert hkey
  cases property <;> decide

end CompileRequest

end FormCompiler
