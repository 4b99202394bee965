import FormCompiler.Proofs.FormEntries
import FormCompiler.Proofs.VisitedAttributes

/-!
# FormCompiler.Proofs.Placement

Where the entries of a form come from.  `Walker.Places` goes through the
entries of a page and the nodes of its section side by side and tells which
attribute the entry at a path is built from, be it the field of a name, the
list of an array, or a part of a question.

* Whatever is placed is an entry of the form at its path, and an entry that
  is no list is placed where its attribute is visited
  (`CompileRequest.Places.sound`).
* Every entry of a form with a label is placed
  (`CompileRequest.exists_places`).
-/

namespace FormCompiler

/-- An entry, its path and the attribute it is built from. -/
structure Placement where
  path : Path
  attr : Attribute
  entry : FieldEntry

/-- The entry is another one, which may have become mandatory or conditional
as a part of a question. -/
def FieldEntry.Restates (entry built : FieldEntry) : Prop :=
  ∃ isOptional condition, entry = { built with isOptional, condition }

theorem FieldEntry.Restates.refl (entry : FieldEntry) : entry.Restates entry := by
  cases entry
  exact ⟨_, _, rfl⟩

theorem FieldEntry.Restates.name_eq {entry built : FieldEntry} (h : entry.Restates built) :
    entry.name = built.name := by
  obtain ⟨isOptional, condition, rfl⟩ := h
  rfl

theorem FieldEntry.Restates.label_eq {entry built : FieldEntry} (h : entry.Restates built) :
    entry.label = built.label := by
  obtain ⟨isOptional, condition, rfl⟩ := h
  rfl

/-- An entry that became mandatory or conditional keeps its descriptor. -/
theorem FieldEntry.Restates.descriptor_eq {entry built : FieldEntry} (h : entry.Restates built) :
    entry.descriptor = built.descriptor := by
  obtain ⟨isOptional, condition, rfl⟩ := h
  rfl

namespace Walker

/-! ## placements -/

/-- The entry of an attribute below a path holds a placement: its own, or
one within the answer or a further field of its question. -/
inductive PlacesField (w : Walker) : Bundle → Path → Attribute → FieldEntry → Placement → Prop
  | self {bundle above attr entry} :
      PlacesField w bundle above attr entry ⟨above.child attr.name, attr, entry⟩
  | answer {bundle above attr entry hints dep inner answer extras placement}
      (asked : w.question? (above.child attr.name) = some hints)
      (depends : w.dependency? bundle attr.name = some dep)
      (asks : entry.descriptor.asked? = some (answer, extras))
      (found : dep.attribute? hints.answerName = some inner)
      (inside : PlacesField w dep (above.child attr.name) inner answer placement) :
      PlacesField w bundle above attr entry placement
  | extra {bundle above attr entry hints dep followUp inner answer page extra placement}
      (asked : w.question? (above.child attr.name) = some hints)
      (depends : w.dependency? bundle attr.name = some dep)
      (asks : entry.descriptor.asked? = some (answer, some page))
      (opened : (followUp, .field extra) ∈ hints.followUps.zip page.fields)
      (found : dep.attribute? followUp.name = some inner)
      (inside : PlacesField w dep (above.child attr.name) inner extra placement) :
      PlacesField w bundle above attr entry placement

/-- The nodes of a page, side by side with its entries, hold a placement. -/
inductive Places (w : Walker) : List PageEntry → Bundle → Path → List Node → Placement → Prop
  | field {name entries bundle above attr entry nodes placement}
      (found : bundle.attribute? name = some attr)
      (inside : w.PlacesField bundle above attr entry placement) :
      Places w (.field name :: entries) bundle above (.field entry :: nodes) placement
  | synthetic {spec name entries bundle above page nodes placement}
      (addressed : spec.address = .ok (.synthetic name))
      (inside : Places w spec.entries bundle (above.child name) page.fields placement) :
      Places w (.page spec :: entries) bundle above (.page page :: nodes) placement
  | embedded {spec address entries bundle above attr dep page nodes placement}
      (addressed : spec.address = .ok address) (embeds : ∀ name, address ≠ .synthetic name)
      (found : bundle.attribute? address.name = some attr) (scalar : attr.type.isArray = false)
      (depends : w.dependency? bundle address.name = some dep)
      (inside : Places w spec.entries dep (above.child address.name) page.fields placement) :
      Places w (.page spec :: entries) bundle above (.page page :: nodes) placement
  /-- The list itself. -/
  | list {spec address entries bundle above attr page list nodes}
      (addressed : spec.address = .ok address) (embeds : ∀ name, address ≠ .synthetic name)
      (found : bundle.attribute? address.name = some attr) (array : attr.type.isArray = true)
      (only : page.fields = [.field list]) :
      Places w (.page spec :: entries) bundle above (.page page :: nodes)
        ⟨above.child address.name, attr, list⟩
  /-- Among the elements of the list; a hidden field may stand behind them. -/
  | element {spec address entries bundle above attr dep page list cardinality elements hidden
        nodes placement}
      (addressed : spec.address = .ok address) (embeds : ∀ name, address ≠ .synthetic name)
      (found : bundle.attribute? address.name = some attr) (array : attr.type.isArray = true)
      (depends : w.dependency? bundle address.name = some dep)
      (only : page.fields = [.field list])
      (described : list.descriptor = .list cardinality (elements ++ hidden))
      (aligned : elements.length = spec.entries.length)
      (inside : Places w spec.entries dep (above.child address.name) elements placement) :
      Places w (.page spec :: entries) bundle above (.page page :: nodes) placement
  | later {entry entries bundle above node nodes placement}
      (inside : Places w entries bundle above nodes placement) :
      Places w (entry :: entries) bundle above (node :: nodes) placement

/-! ## fields as they are built -/

section Fields

variable {w : Walker} {bundle : Bundle} {above path : Path} {declared : Attribute}
  {entry built answer : FieldEntry} {extras : Option PageNode} {journal : Journal}
  {placement : Placement}

theorem Builds.isList_eq (h : w.Builds bundle above declared built journal) :
    built.isList = false := by
  cases h with
  | plain unasked described => exact (Attribute.isPlain_of_descriptor described).isList
  | question asked refers described =>
      exact ((Attribute.isPlain_of_descriptor described).attach _ _).1

/-- An entry that asks a question was built with its parts. -/
theorem Builds.asked (h : w.Builds bundle above declared built journal)
    (asks : built.descriptor.asked? = some (answer, extras)) :
    ∃ hints digest dep inner core first, ∃ runs : List FollowUpRun,
      w.question? (above.child declared.name) = some hints ∧
      declared.type.reference? = some digest ∧
      w.dependency? bundle declared.name = some dep ∧
      dep.attribute? hints.answerName = some inner ∧
      w.Builds dep (above.child declared.name) inner core first ∧
      runs.map (·.followUp) = hints.followUps ∧
      (∀ run ∈ runs, dep.attribute? run.followUp.name = some run.attr ∧
        w.Builds dep (above.child declared.name) run.attr run.entry run.journal) ∧
      answer = { core with isOptional := core.isOptional && built.isOptional } ∧
      extras = extrasPage (above.child declared.name)
        (runs.map (w.ruled (above.child declared.name)
          ((above.child declared.name).child inner.name))) := by
  cases h with
  | plain unasked described =>
      exact absurd asks (by simp [entryOf, (Attribute.isPlain_of_descriptor described).asked?])
  | @question _ _ _ descriptor hints digest dep inner core first runs asked refers described depends
      answerAttr answered followUps followUpAttrs followed =>
      refine ⟨hints, digest, dep, inner, core, first, runs, asked, refers, depends, answerAttr,
        answered, followUps, fun run hrun => ⟨followUpAttrs run hrun, followed run hrun⟩, ?_⟩
      obtain ⟨-, hattached | hplain⟩ := (Attribute.isPlain_of_descriptor described).attach
        { core with isOptional := core.isOptional && (w.prefilled above declared).isOptional }
        (extrasPage (above.child declared.name)
          (runs.map (w.ruled (above.child declared.name)
            ((above.child declared.name).child inner.name))))
      · obtain ⟨rfl, rfl⟩ := Prod.mk.inj (Option.some.inj (hattached.symm.trans asks))
        exact ⟨rfl, rfl⟩
      · exact absurd asks (by simp [entryOf, hplain.asked?])

/-- The entry of an attribute stands at the path of its name. -/
theorem Builds.placedAt_eq (h : w.Builds bundle above declared built journal)
    (hentry : entry.Restates built) : entry.placedAt above = above.child declared.name := by
  obtain ⟨isOptional, condition, rfl⟩ := hentry
  have hlist : built.descriptor.isList = false := h.isList_eq
  simp [FieldEntry.placedAt, FieldEntry.isList, hlist, h.name_eq]

/-- A rule sets nothing but a condition. -/
theorem restates_ruled (answerPath : Path) (run : FollowUpRun) :
    (w.ruled path answerPath run).Restates run.entry := by
  unfold ruled
  split
  · exact .refl run.entry
  · exact ⟨run.entry.isOptional, _, rfl⟩

theorem fields_of_extrasPage {entries : List FieldEntry} {page : PageNode}
    (h : extrasPage path entries = some page) : page.fields = entries.map .field := by
  unfold extrasPage at h
  split at h
  · contradiction
  · obtain rfl := Option.some.inj h
    rfl

theorem exists_extrasPage {entries : List FieldEntry} (h : entry ∈ entries) (path : Path) :
    ∃ page, extrasPage path entries = some page := by
  unfold extrasPage
  rw [if_neg (by simpa using List.ne_nil_of_mem h)]
  exact ⟨_, rfl⟩

/-- The page of further fields holds nothing else. -/
theorem located_extrasPage (entries : List FieldEntry) (path above : Path) :
    ((extrasPage path entries).toList.flatMap fun page => Node.located above page.fields) =
      entries.flatMap fun entry => entry.located above := by
  unfold extrasPage
  split
  · next h => simp [List.isEmpty_iff.mp h]
  · rw [Option.toList_some, List.flatMap_singleton, Node.located_map_field]

/-- Each field that an answer opens stands beside its definition. -/
theorem mem_zip_followUps {runs : List FollowUpRun} {answerPath : Path} {followUp : FollowUp}
    {extra : FieldEntry} :
    (followUp, Node.field extra) ∈
        (runs.map (·.followUp)).zip ((runs.map (w.ruled path answerPath)).map Node.field) ↔
      ∃ run ∈ runs, run.followUp = followUp ∧ w.ruled path answerPath run = extra := by
  rw [List.map_map, List.zip_map', List.mem_map]
  simp

/-! ## placements within fields -/

/-- What the entry of an attribute holds is an entry of the form, built from
an attribute that is visited at its path. -/
theorem PlacesField.sound (h : w.PlacesField bundle above declared entry placement)
    (hbuilt : w.Builds bundle above declared built journal) (hentry : entry.Restates built) :
    (placement.path, placement.entry) ∈ entry.located above ∧
      w.VisitsField bundle above declared placement.path placement.attr ∧
      placement.entry.label = some (placement.path.key "label") ∧
      placement.entry.isList = false := by
  induction h generalizing built journal with
  | self =>
      rw [FieldEntry.located_eq, hbuilt.placedAt_eq hentry]
      obtain ⟨isOptional, condition, rfl⟩ := hentry
      exact ⟨List.mem_cons_self, .self, hbuilt.label_eq, hbuilt.isList_eq⟩
  | answer asked depends asks found inside ih =>
      rw [FieldEntry.located_eq, hbuilt.placedAt_eq hentry, Descriptor.located_of_asked? asks]
      obtain ⟨isOptional, condition, rfl⟩ := hentry
      obtain ⟨hints, digest, dep, inner, core, first, runs, asked', refers, depends', found',
        answered, -, -, rfl, rfl⟩ := hbuilt.asked asks
      obtain rfl := Option.some.inj (asked'.symm.trans asked)
      obtain rfl := Option.some.inj (depends'.symm.trans depends)
      obtain rfl := Option.some.inj (found'.symm.trans found)
      -- The answer may have become mandatory, and nothing else, since it was built.
      obtain ⟨hlocated, hvisits, hlabel, hlist⟩ := ih answered ⟨_, core.condition, rfl⟩
      exact ⟨List.mem_cons_of_mem _ (List.mem_append_left _ hlocated),
        .answer asked refers depends found hvisits, hlabel, hlist⟩
  | extra asked depends asks opened found inside ih =>
      rw [FieldEntry.located_eq, hbuilt.placedAt_eq hentry, Descriptor.located_of_asked? asks]
      obtain ⟨isOptional, condition, rfl⟩ := hentry
      obtain ⟨hints, digest, dep, inner, core, first, runs, asked', refers, depends', found',
        answered, followUps, followed, rfl, hextras⟩ := hbuilt.asked asks
      obtain rfl := Option.some.inj (asked'.symm.trans asked)
      obtain rfl := Option.some.inj (depends'.symm.trans depends)
      have hfields := fields_of_extrasPage hextras.symm
      rw [hfields, ← followUps, mem_zip_followUps] at opened
      obtain ⟨run, hrun, rfl, rfl⟩ := opened
      obtain ⟨hattr, hrunBuilt⟩ := followed run hrun
      obtain rfl := Option.some.inj (hattr.symm.trans found)
      obtain ⟨hlocated, hvisits, hlabel, hlist⟩ := ih hrunBuilt (restates_ruled _ run)
      refine ⟨List.mem_cons_of_mem _ (List.mem_append_right _ ?_), ?_, hlabel, hlist⟩
      · rw [hextras, located_extrasPage]
        exact List.mem_flatMap.mpr ⟨_, List.mem_map_of_mem hrun, hlocated⟩
      · exact .followUp asked refers depends (followUps ▸ List.mem_map_of_mem hrun) found hvisits

/-- Every entry that the entry of an attribute holds is placed. -/
theorem Builds.exists_placesField (h : w.Builds bundle above declared built journal)
    (hentry : entry.Restates built) {located : FieldEntry}
    (hlocated : (path, located) ∈ entry.located above) :
    ∃ attr, w.PlacesField bundle above declared entry ⟨path, attr, located⟩ := by
  induction h generalizing entry path located with
  | @plain bundle above declared descriptor unasked described =>
      have hplaced := (Builds.plain unasked described : w.Builds bundle _ _ _ _).placedAt_eq hentry
      rw [FieldEntry.located_eq, hplaced] at hlocated
      obtain ⟨isOptional, condition, rfl⟩ := hentry
      have hplain := Attribute.isPlain_of_descriptor described
      simp only [entryOf, hplain.located, List.mem_singleton, Prod.mk.injEq] at hlocated
      obtain ⟨rfl, rfl⟩ := hlocated
      exact ⟨_, .self⟩
  | question asked refers described depends answerAttr answered followUps followUpAttrs followed
      ihAnswer ihFollowed =>
      have hbuilt := Builds.question asked refers described depends answerAttr answered followUps
        followUpAttrs followed
      rw [FieldEntry.located_eq, hbuilt.placedAt_eq hentry, List.mem_cons] at hlocated
      obtain ⟨isOptional, condition, rfl⟩ := hentry
      rcases hlocated with hself | hwithin
      · obtain ⟨rfl, rfl⟩ := Prod.mk.inj hself
        exact ⟨_, .self⟩
      · obtain ⟨-, asks | hplain⟩ := (Attribute.isPlain_of_descriptor described).attach _ _
        · rw [entryOf, Descriptor.located_of_asked? asks, located_extrasPage, List.mem_append,
            List.mem_flatMap] at hwithin
          rcases hwithin with hanswer | ⟨extra, hextra, hmem⟩
          · obtain ⟨attr, hplaces⟩ := ihAnswer ⟨_, _, rfl⟩ hanswer
            exact ⟨attr, .answer asked depends asks answerAttr hplaces⟩
          -- A further field is found by its position beside its definition.
          · obtain ⟨page, hpage⟩ := exists_extrasPage hextra _
            obtain ⟨run, hrun, rfl⟩ := List.mem_map.mp hextra
            obtain ⟨attr, hplaces⟩ := ihFollowed run hrun (restates_ruled _ run) hmem
            refine ⟨attr, .extra asked depends (asks.trans (by rw [hpage])) ?_
              (followUpAttrs run hrun) hplaces⟩
            rw [fields_of_extrasPage hpage, ← followUps, mem_zip_followUps]
            exact ⟨run, hrun, rfl, rfl⟩
        · rw [entryOf, hplain.located] at hwithin
          contradiction

end Fields

/-! ## placements on pages -/

section Pages

variable {w : Walker} {entries : List PageEntry} {bundle : Bundle} {above path : Path}
  {nodes : List Node} {journal : Journal} {placement : Placement}

/-- A list stands at the path of its page, with its elements and the hidden
field within it. -/
theorem located_listOf (attr : Attribute) (path : Path) (identifier : Option FieldEntry)
    (nodes : List Node) :
    (w.listOf attr path identifier nodes).located path =
      (path, w.listOf attr path identifier nodes) ::
        (Node.located path nodes ++ Node.located path (identifier.toList.map .field)) := by
  rw [FieldEntry.located_eq]
  simp [FieldEntry.placedAt, FieldEntry.isList, listOf, Descriptor.isList, Descriptor.located,
    Node.located_append]

/-- The hidden field of a list has no label. -/
theorem label_of_listIdentifier {identifier : Option FieldEntry}
    (h : w.listIdentifier above = ⟨.ok identifier, journal⟩) {located : FieldEntry}
    (hlocated : (path, located) ∈ Node.located above (identifier.toList.map .field)) :
    located.label = none := by
  obtain ⟨rfl, -⟩ | ⟨hints, id, format, -, rfl, -⟩ := listIdentifier_eq_ok h
  · simp [Node.located] at hlocated
  · rw [Node.located_map_field, Option.toList_some, List.flatMap_singleton,
      FieldEntry.located_eq] at hlocated
    simp only [identifierEntry, Descriptor.located, List.mem_singleton, Prod.mk.injEq] at hlocated
    rw [hlocated.2]

/-- What a page holds is an entry of the form.  Lists keep their labels; the
others are built from attributes that are visited at their paths. -/
theorem Places.sound (h : w.Places entries bundle above nodes placement)
    (hfills : w.Fills entries bundle above nodes journal) :
    (placement.path, placement.entry) ∈ Node.located above nodes ∧
      placement.entry.label = some (placement.path.key "label") ∧
      (placement.entry.isList = false →
        w.Visits entries bundle above placement.path placement.attr) := by
  induction h generalizing journal with
  | field found inside =>
      cases hfills with
      | field found' built others =>
          obtain rfl := Option.some.inj (found.symm.trans found')
          obtain ⟨hlocated, hvisits, hlabel, -⟩ := inside.sound built (.refl _)
          rw [Node.located]
          exact ⟨List.mem_append_left _ hlocated, hlabel, fun _ => .field found hvisits⟩
  | synthetic addressed inside ih =>
      obtain ⟨fields, first, rfl, hinside⟩ := hfills.of_synthetic addressed
      obtain ⟨hlocated, hlabel, hvisits⟩ := ih hinside
      rw [Node.located, PageNode.located_eq]
      exact ⟨List.mem_append_left _ hlocated, hlabel,
        fun hlist => .synthetic addressed (hvisits hlist)⟩
  | embedded addressed embeds found scalar depends inside ih =>
      obtain ⟨dep, fields, first, depends', hinside, ⟨-, rfl⟩ | ⟨array, -⟩⟩ :=
        hfills.of_embeds addressed embeds found
      · obtain rfl := Option.some.inj (depends'.symm.trans depends)
        obtain ⟨hlocated, hlabel, hvisits⟩ := ih hinside
        rw [Node.located, PageNode.located_eq]
        exact ⟨List.mem_append_left _ hlocated, hlabel,
          fun hlist => .embedded addressed embeds depends (hvisits hlist)⟩
      · rw [scalar] at array
        contradiction
  | list addressed embeds found array only =>
      obtain ⟨dep, fields, first, depends, hinside,
        ⟨scalar, -⟩ | ⟨-, identifier, recorded, -, rfl⟩⟩ := hfills.of_embeds addressed embeds found
      · rw [array] at scalar
        contradiction
      · obtain rfl : w.listOf _ _ identifier fields = _ := by simpa [sectionNode] using only
        rw [Node.located, PageNode.located_eq]
        refine ⟨List.mem_append_left _ ?_, rfl, fun hlist => ?_⟩
        · simp only [sectionNode, Node.located, located_listOf]
          exact List.mem_append_left _ List.mem_cons_self
        · simp [FieldEntry.isList, listOf, Descriptor.isList] at hlist
  | element addressed embeds found array depends only described aligned inside ih =>
      obtain ⟨dep, fields, first, depends', hinside,
        ⟨scalar, -⟩ | ⟨-, identifier, recorded, -, rfl⟩⟩ := hfills.of_embeds addressed embeds found
      · rw [array] at scalar
        contradiction
      · obtain rfl : w.listOf _ _ identifier fields = _ := by simpa [sectionNode] using only
        obtain rfl := Option.some.inj (depends'.symm.trans depends)
        -- Behind the elements stands the identifier, so the nodes of the list are
        -- the elements by their number.
        have helements := (Descriptor.list.inj described).2
        obtain ⟨rfl, -⟩ := List.append_inj helements (hinside.length_eq.trans aligned.symm)
        obtain ⟨hlocated, hlabel, hvisits⟩ := ih hinside
        rw [Node.located, PageNode.located_eq]
        refine ⟨List.mem_append_left _ ?_, hlabel,
          fun hlist => .embedded addressed embeds depends (hvisits hlist)⟩
        simp only [sectionNode, Node.located, located_listOf]
        exact List.mem_append_left _ (List.mem_cons_of_mem _ (List.mem_append_left _ hlocated))
  | later inside ih =>
      obtain ⟨rest, hothers⟩ := hfills.tail
      obtain ⟨hlocated, hlabel, hvisits⟩ := ih hothers
      exact ⟨Node.mem_located_cons _ hlocated, hlabel, fun hlist => .later (hvisits hlist)⟩

/-- Every entry with a label on a page is placed; the hidden field of a list
has none. -/
theorem Fills.exists_places (h : w.Fills entries bundle above nodes journal)
    {located : FieldEntry} (hlocated : (path, located) ∈ Node.located above nodes)
    (hlabel : located.label ≠ none) :
    ∃ attr, w.Places entries bundle above nodes ⟨path, attr, located⟩ := by
  induction h with
  | nil => simp [Node.located] at hlocated
  | field found built others ih =>
      rw [Node.located, List.mem_append] at hlocated
      rcases hlocated with hfield | hothers
      · obtain ⟨attr, hplaces⟩ := built.exists_placesField (.refl _) hfield
        exact ⟨attr, .field found hplaces⟩
      · obtain ⟨attr, hplaces⟩ := ih hothers
        exact ⟨attr, .later hplaces⟩
  | synthetic addressed inside others ihInside ihOthers =>
      rw [Node.located, PageNode.located_eq, List.mem_append] at hlocated
      rcases hlocated with hpage | hothers
      · obtain ⟨attr, hplaces⟩ := ihInside hpage
        exact ⟨attr, .synthetic addressed hplaces⟩
      · obtain ⟨attr, hplaces⟩ := ihOthers hothers
        exact ⟨attr, .later hplaces⟩
  | embedded addressed embeds found refers scalar depends inside others ihInside ihOthers =>
      rw [Node.located, PageNode.located_eq, List.mem_append] at hlocated
      rcases hlocated with hpage | hothers
      · obtain ⟨attr, hplaces⟩ := ihInside hpage
        exact ⟨attr, .embedded addressed embeds found scalar depends hplaces⟩
      · obtain ⟨attr, hplaces⟩ := ihOthers hothers
        exact ⟨attr, .later hplaces⟩
  | list addressed embeds found refers array depends identified inside others ihInside ihOthers =>
      rw [Node.located, PageNode.located_eq, List.mem_append] at hlocated
      rcases hlocated with hpage | hothers
      · simp only [sectionNode, Node.located, List.append_nil, located_listOf, List.mem_cons,
          List.mem_append] at hpage
        rcases hpage with hlist | helement | hhidden
        · obtain ⟨rfl, rfl⟩ := Prod.mk.inj hlist
          exact ⟨_, .list addressed embeds found array rfl⟩
        · obtain ⟨attr, hplaces⟩ := ihInside helement
          exact ⟨attr, .element addressed embeds found array depends rfl rfl inside.length_eq
            hplaces⟩
        · exact absurd (label_of_listIdentifier identified hhidden) hlabel
      · obtain ⟨attr, hplaces⟩ := ihOthers hothers
        exact ⟨attr, .later hplaces⟩

end Pages

end Walker

/-! ## placements in forms -/

namespace CompileRequest

/-- The form holds an entry at a path that is built from an attribute of the
request. -/
def Places (request : CompileRequest) (options : CompileOptions) (form : Form)
    (placement : Placement) : Prop :=
  ∃ page ∈ form.pages, ∃ spec, request.presentation.findPage? page.name = some spec ∧
    (request.resolvedWalker options).Places spec.entries request.bundle .root page.fields placement

variable {request : CompileRequest} {options : CompileOptions} {compiled : CompiledForm}
  {placement : Placement}

/-- Whatever is placed stands in the form under its key, and its attribute is
visited unless it is a list. -/
theorem Places.sound (h : request.compile options = .ok compiled)
    (hplaces : request.Places options compiled.form placement) :
    (placement.path, placement.entry) ∈ compiled.form.located ∧
      placement.entry.label = some (placement.path.key "label") ∧
      (placement.entry.isList = false → request.Visits options placement.path placement.attr) := by
  obtain ⟨-, journal, hfills, -, -⟩ := compile_eq_ok h
  obtain ⟨page, hpage, spec, found, inside⟩ := hplaces
  obtain ⟨hname, -, spec', first, found', hinside⟩ := hfills.of_mem hpage
  obtain rfl := Option.some.inj (found.symm.trans found')
  obtain ⟨hlocated, hlabel, hvisits⟩ := inside.sound hinside
  exact ⟨List.mem_flatMap.mpr ⟨page, hpage, hlocated⟩, hlabel,
    fun hlist => ⟨page.name, hname, spec, found, hvisits hlist⟩⟩

/-- Every entry of a compiled form with a label is built from an attribute. -/
theorem exists_places (h : request.compile options = .ok compiled) {path : Path}
    {entry : FieldEntry} (hlocated : (path, entry) ∈ compiled.form.located)
    (hlabel : entry.label ≠ none) :
    ∃ attr, request.Places options compiled.form ⟨path, attr, entry⟩ := by
  obtain ⟨-, journal, hfills, -, -⟩ := compile_eq_ok h
  obtain ⟨page, hpage, hlocated⟩ := List.mem_flatMap.mp hlocated
  obtain ⟨-, -, spec, first, found, inside⟩ := hfills.of_mem hpage
  obtain ⟨attr, hplaces⟩ := inside.exists_places hlocated hlabel
  exact ⟨attr, page, hpage, spec, found, hplaces⟩

end CompileRequest

end FormCompiler
