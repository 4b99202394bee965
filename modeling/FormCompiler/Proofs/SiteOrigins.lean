import FormCompiler.Proofs.FormSites
import FormCompiler.Proofs.Placement

/-!
# FormCompiler.Proofs.SiteOrigins

How what stands in a compiled form came about.  `Walker.Origin` has one rule
for each part of a form: a section and the identifier of a list are made
from the path alone; the field of an attribute, the answer and the further
fields of a question are entries that the walk built, as the question left
them; a list holds the nodes that were filled in, and its identifier.

Everything that stands in a compiled form has an origin, and what is placed
within its entries is placed in the form
(`CompileRequest.origin_of_mem_sites`).
-/

namespace FormCompiler

/-! ## descriptors as they are first built -/

/-- No list, no hidden field, and no question with an answer or a further
field. -/
def Descriptor.isFresh : Descriptor → Bool
  | .array _ element => element.isFresh
  | .list _ _ | .hidden _ _ => false
  | .question answer extras => answer.isNone && extras.isNone
  | _ => true

namespace Attribute

variable {attr : Attribute} {props : WidgetProperties} {now : Timestamp} {descriptor : Descriptor}

theorem isFresh_of_scalarDescriptor (h : attr.scalarDescriptor props now = .ok descriptor) :
    descriptor.isFresh = true := by
  unfold scalarDescriptor at h
  split at h
  all_goals cases h
  all_goals rfl

/-- The descriptor of an attribute holds nothing yet, nor does the element of
an array. -/
theorem isFresh_of_descriptor (h : attr.descriptor props now = .ok descriptor) :
    descriptor.isFresh = true := by
  obtain ⟨_, _, rfl⟩ | ⟨_, rfl⟩ | ⟨_, _, element, -, helement, rfl⟩ | hscalar := descriptor_eq_ok h
  · rfl
  · rfl
  · show element.isFresh = true
    exact isFresh_of_scalarDescriptor helement
  · exact isFresh_of_scalarDescriptor hscalar

end Attribute

namespace Descriptor

theorem sites_of_isFresh (path : Path) : {descriptor : Descriptor} → descriptor.isFresh = true →
    descriptor.sites path = []
  | .array _ element, h => by
      rw [Descriptor.sites]
      exact sites_of_isFresh path h
  | .question none none, _ => by simp [Descriptor.sites]
  | .list _ _, h | .hidden _ _, h => absurd h Bool.false_ne_true
  | .choice _ _, _ | .multifile _, _ | .text _ _, _ | .codeScanner _, _ | .file, _
  | .signature _, _ | .number _, _ | .checkbox, _ | .date _ _ _, _ => by simp [Descriptor.sites]

theorem isHidden_of_isFresh {descriptor : Descriptor} (h : descriptor.isFresh = true) :
    descriptor.isHidden = false := by
  cases descriptor with
  | hidden => exact absurd h Bool.false_ne_true
  | _ => rfl

@[simp] theorem isHidden_attach (descriptor : Descriptor) (answer : FieldEntry)
    (extras : Option PageNode) :
    (descriptor.attach answer extras).isHidden = descriptor.isHidden := by
  unfold attach
  split <;> rfl

/-- A question takes what is attached to it; any other descriptor stays as
it is. -/
theorem asked?_attach_or (descriptor : Descriptor) (answer : FieldEntry)
    (extras : Option PageNode) :
    (descriptor.attach answer extras).asked? = some (answer, extras) ∨
      descriptor.attach answer extras = descriptor := by
  unfold attach
  split
  · exact .inl rfl
  · exact .inl rfl
  · exact .inr rfl

/-- Within a question stand its answer and its further fields. -/
theorem sites_of_asked? {descriptor : Descriptor} {answer : FieldEntry}
    {extras : Option PageNode} (h : descriptor.asked? = some (answer, extras)) (path : Path) :
    descriptor.sites path = answer.sites (.answer answer) path ++
      extras.toList.flatMap fun page => Node.sites Site.inQuestion path page.fields := by
  have hquestion : (Descriptor.question (some answer) extras).sites path =
      answer.sites (.answer answer) path ++
        extras.toList.flatMap fun page => Node.sites Site.inQuestion path page.fields := by
    cases extras with
    | none => simp [Descriptor.sites]
    | some page => simp [Descriptor.sites, PageNode.sites_eq]
  unfold asked? at h
  split at h
  · obtain ⟨rfl, rfl⟩ := Prod.mk.inj (Option.some.inj h)
    exact hquestion
  · obtain ⟨rfl, rfl⟩ := Prod.mk.inj (Option.some.inj h)
    rw [Descriptor.sites]
    exact hquestion
  · contradiction

end Descriptor

/-! ## sites of nodes -/

namespace Node

/-- The fields on the page of a question are its further fields. -/
theorem sites_map_field (path : Path) (entries : List FieldEntry) :
    Node.sites Site.inQuestion path (entries.map .field) =
      entries.flatMap fun entry => entry.sites (.extra entry) path := by
  induction entries with
  | nil => rw [List.map_nil, Node.sites, List.flatMap_nil]
  | cons entry entries ih => rw [List.map_cons, Node.sites, ih, List.flatMap_cons, Site.inQuestion]

/-- Elements of a list that are not hidden stand as on a page. -/
theorem sites_inList_append {nodes : List Node}
    (h : ∀ entry, .field entry ∈ nodes → entry.descriptor.isHidden = false) (path : Path)
    (behind : List Node) :
    Node.sites Site.inList path (nodes ++ behind) =
      Node.sites Site.onPage path nodes ++ Node.sites Site.inList path behind := by
  induction nodes with
  | nil => rw [List.nil_append, Node.sites, List.nil_append]
  | cons node nodes ih =>
      have hrest := ih fun entry hentry => h entry (List.mem_cons_of_mem _ hentry)
      cases node with
      | field entry =>
          have hvisible := h entry List.mem_cons_self
          have hpart : Site.inList entry (nodes ++ behind) = Site.onPage entry nodes := by
            simp [Site.inList, FieldEntry.isIdentifier, hvisible, Site.onPage]
          rw [List.cons_append, Node.sites, hrest, hpart, Node.sites, List.append_assoc]
      | page page =>
          rw [List.cons_append, Node.sites, hrest, Node.sites, List.cons_append, List.append_assoc]

end Node

namespace Walker

/-! ## origins -/

/-- How the walk comes to what stands at a path.  The entries of attributes
are placed, and so is what is placed within them. -/
inductive Origin (w : Walker) (Placed : Placement → Prop) : Path → Site → Prop
  | page {above : Path} {name fields} :
      Origin w Placed (above.child name) (.page (w.sectionNode (above.child name) name fields))
  | field {bundle} {above : Path} {attr entry journal}
      (built : w.Builds bundle above attr entry journal)
      (placed : ∀ placement, w.PlacesField bundle above attr entry placement → Placed placement) :
      Origin w Placed (above.child attr.name) (.field entry)
  /-- The answer of a question that may be left out if `isOptional` says so. -/
  | answer {bundle} {above : Path} {attr core journal isOptional}
      (built : w.Builds bundle above attr core journal)
      (placed : ∀ placement, w.PlacesField bundle above attr
        { core with isOptional := core.isOptional && isOptional } placement → Placed placement) :
      Origin w Placed (above.child attr.name)
        (.answer { core with isOptional := core.isOptional && isOptional })
  | extra {bundle} {above answer : Path} {run : FollowUpRun}
      (built : w.Builds bundle above run.attr run.entry run.journal)
      (placed : ∀ placement, w.PlacesField bundle above run.attr (w.ruled above answer run)
        placement → Placed placement) :
      Origin w Placed (above.child run.attr.name) (.extra (w.ruled above answer run))
  | list {entries bundle} {above : Path} {name attr identifier recorded nodes journal}
      (identified : w.listIdentifier (above.child name) = ⟨.ok identifier, recorded⟩)
      (inside : w.Fills entries bundle (above.child name) nodes journal)
      (placed :
        Placed ⟨above.child name, attr, w.listOf attr (above.child name) identifier nodes⟩) :
      Origin w Placed (above.child name) (.list (w.listOf attr (above.child name) identifier nodes))
  | identifier {above : Path} {hints id format}
      (requested : w.identifierRequest? above = some (hints, id)) :
      Origin w Placed (above.child IdentifierTree.identifierKey)
        (.identifier (identifierEntry format hints))

section Origins

variable {w : Walker} {Placed Placed' : Placement → Prop} {bundle : Bundle} {above path : Path}
  {declared : Attribute} {built entry : FieldEntry} {journal : Journal} {site : Site}

/-- An origin stays one with more that is placed. -/
theorem Origin.mono (h : w.Origin Placed path site)
    (hplaced : ∀ placement, Placed placement → Placed' placement) : w.Origin Placed' path site := by
  cases h with
  | page => exact .page
  | field built placed => exact .field built fun p hp => hplaced p (placed p hp)
  | answer built placed => exact .answer built fun p hp => hplaced p (placed p hp)
  | extra built placed => exact .extra built fun p hp => hplaced p (placed p hp)
  | list identified inside placed => exact .list identified inside (hplaced _ placed)
  | identifier requested => exact .identifier requested

/-! ## what stands within fields -/

@[simp] theorem descriptor_entryOf (above : Path) (declared : Attribute)
    (descriptor : Descriptor) : (w.entryOf above declared descriptor).descriptor = descriptor := rfl

/-- A field is never hidden, whatever its question adds. -/
theorem Builds.isHidden_eq (h : w.Builds bundle above declared built journal) :
    built.descriptor.isHidden = false := by
  cases h with
  | plain unasked described =>
      exact Descriptor.isHidden_of_isFresh (Attribute.isFresh_of_descriptor described)
  | question asked refers described =>
      rw [descriptor_entryOf, Descriptor.isHidden_attach]
      exact Descriptor.isHidden_of_isFresh (Attribute.isFresh_of_descriptor described)

/-- What stands within the entry of an attribute is a part of a question. -/
theorem Builds.origin_of_mem (h : w.Builds bundle above declared built journal)
    (hentry : entry.Restates built)
    (hsite : (path, site) ∈ entry.descriptor.sites (above.child declared.name)) :
    w.Origin (w.PlacesField bundle above declared entry) path site := by
  induction h generalizing entry path site with
  | plain unasked described =>
      rw [hentry.descriptor_eq, descriptor_entryOf,
        Descriptor.sites_of_isFresh _ (Attribute.isFresh_of_descriptor described)] at hsite
      contradiction
  | @question bundle above declared descriptor hints digest dep inner core first runs asked refers
      described depends answerAttr answered followUps followUpAttrs followed ihAnswer
      ihFollowed =>
      have hdescriptor := hentry.descriptor_eq
      rw [descriptor_entryOf] at hdescriptor
      obtain hasks | hsame := descriptor.asked?_attach_or
        { core with isOptional := core.isOptional && (w.prefilled above declared).isOptional }
        (extrasPage (above.child declared.name)
          (runs.map (w.ruled (above.child declared.name)
            ((above.child declared.name).child inner.name))))
      · have asks := (congrArg Descriptor.asked? hdescriptor).trans hasks
        rw [Descriptor.sites_of_asked? asks, List.mem_append] at hsite
        rcases hsite with hanswer | hextras
        · rw [FieldEntry.sites_eq, answered.placedAt_eq ⟨_, core.condition, rfl⟩,
            List.mem_cons] at hanswer
          rcases hanswer with hself | hwithin
          · obtain ⟨rfl, rfl⟩ := Prod.mk.inj hself
            exact .answer answered fun _ hplaces => .answer asked depends asks answerAttr hplaces
          · exact (ihAnswer ⟨_, core.condition, rfl⟩ hwithin).mono fun _ hplaces =>
              .answer asked depends asks answerAttr hplaces
        · obtain ⟨page, hpage, hextra⟩ := List.mem_flatMap.mp hextras
          rw [Option.mem_toList] at hpage
          rw [fields_of_extrasPage hpage, Node.sites_map_field, List.mem_flatMap] at hextra
          obtain ⟨extra, hruled, hextra⟩ := hextra
          obtain ⟨run, hrun, rfl⟩ := List.mem_map.mp hruled
          -- The question places the extra beside its definition.
          have hplaced : ∀ placement, w.PlacesField dep (above.child declared.name) run.attr
              (w.ruled (above.child declared.name)
                ((above.child declared.name).child inner.name) run) placement →
              w.PlacesField bundle above declared entry placement := fun placement hplaces => by
            refine .extra asked depends (asks.trans (by rw [hpage])) ?_ (followUpAttrs run hrun)
              hplaces
            rw [fields_of_extrasPage hpage, ← followUps, mem_zip_followUps]
            exact ⟨run, hrun, rfl, rfl⟩
          rw [FieldEntry.sites_eq, (followed run hrun).placedAt_eq (restates_ruled _ run),
            List.mem_cons] at hextra
          rcases hextra with hself | hwithin
          · obtain ⟨rfl, rfl⟩ := Prod.mk.inj hself
            exact .extra (followed run hrun) hplaced
          · exact (ihFollowed run hrun (restates_ruled _ run) hwithin).mono hplaced
      · rw [hdescriptor, hsame,
          Descriptor.sites_of_isFresh _ (Attribute.isFresh_of_descriptor described)] at hsite
        contradiction

end Origins

/-! ## what stands on pages -/

section Pages

variable {w : Walker} {entries : List PageEntry} {bundle : Bundle} {above path : Path}
  {nodes : List Node} {journal : Journal} {site : Site}

/-- No field or list of a page is hidden. -/
theorem Fills.isHidden_eq (h : w.Fills entries bundle above nodes journal) {entry : FieldEntry}
    (hentry : .field entry ∈ nodes) : entry.descriptor.isHidden = false := by
  induction h with
  | nil => simp at hentry
  | field found built others ih =>
      rcases List.mem_cons.mp hentry with heq | hentry
      · obtain rfl := Node.field.inj heq
        exact built.isHidden_eq
      · exact ih hentry
  | synthetic _ _ _ _ ih | embedded _ _ _ _ _ _ _ _ _ ih | list _ _ _ _ _ _ _ _ _ _ ih =>
      exact ih (by simpa using hentry)

/-- In the list of an attribute stand its elements as on a page, and its
identifier. -/
theorem sites_listOf (h : w.Fills entries bundle path nodes journal) (attr : Attribute)
    (identifier : Option FieldEntry) :
    (w.listOf attr path identifier nodes).sites (.list (w.listOf attr path identifier nodes)) path =
      (path, .list (w.listOf attr path identifier nodes)) :: (Node.sites Site.onPage path nodes ++
        Node.sites Site.inList path (identifier.toList.map .field)) := by
  rw [FieldEntry.sites_eq]
  simp [FieldEntry.placedAt, FieldEntry.isList, listOf, Descriptor.isList, Descriptor.sites,
    Node.sites_inList_append fun _ => h.isHidden_eq]

/-- The identifier of a list stands below the list under its own name. -/
theorem sites_listIdentifier {identifier : Option FieldEntry}
    (h : w.listIdentifier path = ⟨.ok identifier, journal⟩) :
    Node.sites Site.inList path (identifier.toList.map .field) =
      identifier.toList.map fun entry =>
        (path.child IdentifierTree.identifierKey, .identifier entry) := by
  obtain ⟨rfl, -⟩ | ⟨hints, id, format, -, rfl, -⟩ := listIdentifier_eq_ok h
  · simp [Node.sites]
  · simp [Node.sites, FieldEntry.sites, identifierEntry, Site.inList, FieldEntry.isIdentifier,
      Descriptor.isHidden, Descriptor.isList, Descriptor.sites]

@[simp] theorem name_sectionNode (path : Path) (name : String) :
    (w.sectionNode path name nodes).name = name := rfl

/-- The section of an array holds its list. -/
theorem sites_listSection {name : String} {attr : Attribute} {identifier : Option FieldEntry}
    {recorded : Journal} (h : w.Fills entries bundle path nodes journal)
    (identified : w.listIdentifier path = ⟨.ok identifier, recorded⟩) :
    (w.sectionNode path name [.field (w.listOf attr path identifier nodes)]).sites
        Site.onPage path =
      (path, .list (w.listOf attr path identifier nodes)) :: (Node.sites Site.onPage path nodes ++
        identifier.toList.map fun entry =>
          (path.child IdentifierTree.identifierKey, .identifier entry)) := by
  have hlist : (w.listOf attr path identifier nodes).isList = true := rfl
  rw [PageNode.sites_eq, sectionNode, Node.sites, Node.sites, List.append_nil, Site.onPage,
    if_pos hlist, sites_listOf h, sites_listIdentifier identified]

/-- What stands on a page that a walk filled in has an origin. -/
theorem Fills.origin_of_mem (h : w.Fills entries bundle above nodes journal)
    (hsite : (path, site) ∈ Node.sites Site.onPage above nodes) :
    w.Origin (w.Places entries bundle above nodes) path site := by
  induction h with
  | nil => simp [Node.sites] at hsite
  | field found built others ih =>
      rw [Node.sites, List.mem_append, FieldEntry.sites_eq, built.placedAt_eq (.refl _),
        Site.onPage, if_neg (by simp [built.isList_eq]), List.mem_cons] at hsite
      rcases hsite with (hself | hwithin) | hothers
      · obtain ⟨rfl, rfl⟩ := Prod.mk.inj hself
        exact .field built fun _ hplaces => .field found hplaces
      · exact (built.origin_of_mem (.refl _) hwithin).mono fun _ hplaces => .field found hplaces
      · exact (ih hothers).mono fun _ => .later
  | synthetic addressed inside others ihInside ihOthers =>
      rw [Node.sites, PageNode.sites_eq, List.mem_cons, List.mem_append] at hsite
      rcases hsite with hself | hinside | hothers
      · obtain ⟨rfl, rfl⟩ := Prod.mk.inj hself
        exact .page
      · exact (ihInside hinside).mono fun _ hplaces => .synthetic addressed hplaces
      · exact (ihOthers hothers).mono fun _ => .later
  | embedded addressed embeds found refers scalar depends inside others ihInside ihOthers =>
      rw [Node.sites, PageNode.sites_eq, List.mem_cons, List.mem_append] at hsite
      rcases hsite with hself | hinside | hothers
      · obtain ⟨rfl, rfl⟩ := Prod.mk.inj hself
        exact .page
      · exact (ihInside hinside).mono fun _ hplaces =>
          .embedded addressed embeds found scalar depends hplaces
      · exact (ihOthers hothers).mono fun _ => .later
  | @list spec address entries bundle above attr digest dep identifier recorded fields nodes first
      rest addressed embeds found refers array depends identified inside others ihInside
      ihOthers =>
      -- The section of an array holds its list, the elements, and the identifier.
      rw [Node.sites, name_sectionNode, sites_listSection inside identified, List.mem_cons,
        List.mem_append] at hsite
      rcases hsite with hself | hinside | hothers
      · obtain ⟨rfl, rfl⟩ := Prod.mk.inj hself
        exact .page
      · rw [List.mem_cons, List.mem_append, List.mem_map] at hinside
        rcases hinside with hself | helement | ⟨hidden, hhidden, hself⟩
        · obtain ⟨rfl, rfl⟩ := Prod.mk.inj hself
          exact .list identified inside (.list addressed embeds found array rfl)
        · exact (ihInside helement).mono fun _ hplaces =>
            .element addressed embeds found array depends rfl rfl inside.length_eq hplaces
        · obtain ⟨rfl, rfl⟩ := Prod.mk.inj hself
          obtain ⟨rfl, -⟩ | ⟨hints, id, format, requested, rfl, -⟩ :=
            listIdentifier_eq_ok identified
          · simp at hhidden
          · obtain rfl : hidden = identifierEntry format hints := by simpa using hhidden
            exact .identifier requested
      · exact (ihOthers hothers).mono fun _ => .later

end Pages

/-! ## the entries of attributes -/

/-- A rule leaves a further field as optional as it was. -/
@[simp] theorem isOptional_ruled {w : Walker} (path answer : Path) (run : FollowUpRun) :
    (w.ruled path answer run).isOptional = run.entry.isOptional := by
  unfold ruled
  split <;> rfl

/-- An entry that is neither a list nor hidden was built from an attribute;
only as an answer it may have become mandatory since. -/
theorem Origin.exists_builds {w : Walker} {Placed : Placement → Prop} {path : Path} {site : Site}
    (h : w.Origin Placed path site) {entry : FieldEntry} (hentry : site.item? = some entry)
    (hlist : entry.isList = false) (hvisible : entry.descriptor.isHidden = false) :
    ∃ bundle above attr built journal, path = above.child attr.name ∧
      w.Builds bundle above attr built journal ∧ entry.Restates built ∧
      (∀ placement, w.PlacesField bundle above attr entry placement → Placed placement) ∧
      (site.isAnswer = false → entry.isOptional = built.isOptional) := by
  cases h with
  | page => contradiction
  | field built placed =>
      obtain rfl := Option.some.inj hentry
      exact ⟨_, _, _, _, _, rfl, built, .refl _, placed, fun _ => rfl⟩
  | answer built placed =>
      obtain rfl := Option.some.inj hentry
      exact ⟨_, _, _, _, _, rfl, built, ⟨_, _, rfl⟩, placed, fun hnot => nomatch hnot⟩
  | extra built placed =>
      obtain rfl := Option.some.inj hentry
      exact ⟨_, _, _, _, _, rfl, built, restates_ruled _ _, placed,
        fun _ => isOptional_ruled _ _ _⟩
  | list identified inside placed =>
      obtain rfl := Option.some.inj hentry
      contradiction
  | identifier requested =>
      obtain rfl := Option.some.inj hentry
      contradiction

/-! ## hidden entries -/

/-- Only identifiers are hidden. -/
theorem Origin.eq_identifier {w : Walker} {Placed : Placement → Prop} {path : Path} {site : Site}
    (h : w.Origin Placed path site) {entry : FieldEntry} (hentry : site.item? = some entry)
    (hhidden : entry.descriptor.isHidden = true) : site = .identifier entry := by
  cases h with
  | page => contradiction
  | field built placed =>
      obtain rfl := Option.some.inj hentry
      rw [built.isHidden_eq] at hhidden
      contradiction
  | answer built placed =>
      obtain rfl := Option.some.inj hentry
      rw [built.isHidden_eq] at hhidden
      contradiction
  | extra built placed =>
      obtain rfl := Option.some.inj hentry
      rw [(restates_ruled _ _).descriptor_eq, built.isHidden_eq] at hhidden
      contradiction
  | list identified inside placed =>
      obtain rfl := Option.some.inj hentry
      contradiction
  | identifier requested =>
      obtain rfl := Option.some.inj hentry
      rfl

/-! ## labelled entries -/

section Labels

variable {w : Walker} {Placed : Placement → Prop} {path : Path} {site : Site}

/-- The key of the label of what stands below a path. -/
theorem label_key_child (path : Path) (name : String) :
    (path.child name).key "label" = (path.child name).render ++ ".label" := by
  rw [Path.key_child, String.append_assoc]
  rfl

/-- Rules are read for the path that a field is built at. -/
theorem Builds.isReadonly_eq {bundle : Bundle} {above : Path} {declared : Attribute}
    {built : FieldEntry} {journal : Journal} (h : w.Builds bundle above declared built journal) :
    built.isReadonly = w.isReadonly (above.child declared.name) := by
  cases h with
  | plain => rfl
  | question => rfl

/-- An entry with a label is labelled and made read-only by its path. -/
theorem Origin.labelled (h : w.Origin Placed path site) {entry : FieldEntry}
    (hentry : site.item? = some entry) (hlabel : entry.label ≠ none) :
    entry.label = some (path.render ++ ".label") ∧ entry.isReadonly = w.isReadonly path := by
  cases h with
  | page => simp [Site.item?] at hentry
  | field built placed =>
      obtain rfl := Option.some.inj hentry
      exact ⟨built.label_eq.trans (by rw [label_key_child]), built.isReadonly_eq⟩
  | answer built placed =>
      obtain rfl := Option.some.inj hentry
      exact ⟨built.label_eq.trans (by rw [label_key_child]), built.isReadonly_eq⟩
  | @extra bundle above answer run built placed =>
      obtain rfl := Option.some.inj hentry
      obtain ⟨isOptional, condition, hrestates⟩ : (w.ruled above answer run).Restates run.entry :=
        restates_ruled answer run
      rw [hrestates]
      exact ⟨built.label_eq.trans (by rw [label_key_child]), built.isReadonly_eq⟩
  | list identified inside placed =>
      obtain rfl := Option.some.inj hentry
      exact ⟨by rw [listOf, label_key_child], rfl⟩
  | identifier requested =>
      obtain rfl := Option.some.inj hentry
      exact absurd rfl hlabel

end Labels

end Walker

/-! ## compiled forms -/

/-- Whatever stands in a compiled form has an origin. -/
theorem CompileRequest.origin_of_mem_sites {request : CompileRequest} {options : CompileOptions}
    {compiled : CompiledForm} (h : request.compile options = .ok compiled) {path : Path}
    {site : Site} (hsite : (path, site) ∈ compiled.form.sites) :
    (request.resolvedWalker options).Origin (request.Places options compiled.form) path site := by
  obtain ⟨-, journal, hfills, -, -⟩ := compile_eq_ok h
  obtain ⟨page, hpage, hsite⟩ := List.mem_flatMap.mp hsite
  obtain ⟨-, -, spec, first, found, inside⟩ := hfills.of_mem hpage
  exact (inside.origin_of_mem hsite).mono fun _ hplaces => ⟨page, hpage, spec, found, hplaces⟩

end FormCompiler
