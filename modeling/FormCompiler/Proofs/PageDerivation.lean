import FormCompiler.Proofs.FieldDerivation
import FormCompiler.Walker.Page

/-!
# FormCompiler.Proofs.PageDerivation

The nodes of a page as a derivation.  `Walker.Fills` goes through the
entries of a page in order and has one rule for each kind of entry:

1. a name, which becomes the field of an attribute;
2. a synthetic page, which goes on in the same bundle;
3. the page of a reference, which goes on in the bundle referred to;
4. the page of an array of references, which holds one list.

`Walker.FillsPages` does the same for the pages of the page order.  Whatever
a walk ends with has a derivation (`fills_of_walkEntries`,
`fillsPages_of_orderedPages`).
-/

namespace FormCompiler

def JournalEntry.isRemark : JournalEntry → Bool
  | .title _ _ _ | .notice _ => true
  | _ => false

theorem JournalEntry.notMem_of_isRemark {entry : JournalEntry} {journal : Journal}
    (hentry : entry.isRemark = false) (h : ∀ other ∈ journal, other.isRemark = true) :
    entry ∉ journal := by
  intro hmem
  rw [h entry hmem] at hentry
  contradiction

/-- A page is synthetic, or it embeds an attribute by either key. -/
theorem PageAddress.synthetic_or_embeds (address : PageAddress) :
    (∃ name, address = .synthetic name) ∨ ∀ name, address ≠ .synthetic name := by
  cases address with
  | synthetic name => exact .inl ⟨name, rfl⟩
  | outdated name | reference name => exact .inr fun name' h => nomatch h

namespace Walker

/-! ## what a section consists of -/

def sectionNode (w : Walker) (path : Path) (name : String) (fields : List Node) : PageNode :=
  ⟨.struct, name, sectionTitleKey name, w.condition? path, fields⟩

def listOf (w : Walker) (attr : Attribute) (path : Path) (identifier : Option FieldEntry)
    (nodes : List Node) : FieldEntry where
  name := attr.name
  label := some (path.key "label")
  isOptional := attr.isOptional
  isReadonly := w.isReadonly path
  condition := none
  descriptor :=
    .list (Cardinality.parse? attr.cardinality) (nodes ++ identifier.toList.map .field)

/-- What is written down about the titles of a synthetic page. -/
def syntheticTitles (w : Walker) (name : String) : Journal :=
  w.presentation.languages.map (w.syntheticTitleEntry name (sectionTitleKey name))

/-- What is written down about the titles of the page of an attribute. -/
def referenceTitles (w : Walker) (address : PageAddress) (attr : Attribute) : Journal :=
  ((if address.isOutdated then [Notice.outdatedAddress address.name] else []).map .notice) ++
    (((if attr.labels.isEmpty then [Notice.unlabelled attr.name] else []).map .notice) ++
      w.presentation.languages.map (referenceTitleEntry attr (sectionTitleKey address.name)))

def pageTitles (w : Walker) (address : PageAddress) (page : String) : Journal :=
  ((if address.isOutdated then [Notice.outdatedAddress address.name] else []).map .notice) ++
    w.presentation.languages.map (w.pageTitleEntry page)

/-! ## remarks -/

section Remarks

variable {w : Walker} {above : Path} {attr : Attribute} {entry : JournalEntry}

theorem isRemark_of_mem_boundNotices (h : entry ∈ w.boundNotices above attr) :
    entry.isRemark = true := by
  obtain ⟨notice, -, rfl⟩ := List.mem_map.mp h
  rfl

theorem isRemark_of_mem_syntheticTitles {name : String} (h : entry ∈ w.syntheticTitles name) :
    entry.isRemark = true := by
  obtain ⟨lang, -, rfl⟩ := List.mem_map.mp h
  unfold syntheticTitleEntry
  split <;> rfl

theorem isRemark_of_mem_referenceTitles {address : PageAddress}
    (h : entry ∈ w.referenceTitles address attr) : entry.isRemark = true := by
  simp only [referenceTitles, List.mem_append, List.mem_map] at h
  obtain ⟨notice, -, rfl⟩ | ⟨notice, -, rfl⟩ | ⟨lang, -, rfl⟩ := h
  · rfl
  · rfl
  · unfold referenceTitleEntry
    split <;> rfl

theorem isRemark_of_mem_pageTitles {address : PageAddress} {page : String}
    (h : entry ∈ w.pageTitles address page) : entry.isRemark = true := by
  simp only [pageTitles, List.mem_append, List.mem_map] at h
  obtain ⟨notice, -, rfl⟩ | ⟨lang, -, rfl⟩ := h
  · rfl
  · unfold pageTitleEntry
    split
    · rfl
    · split <;> rfl

end Remarks

/-! ## derivations -/

/-- The entries of a page below a path are filled in with nodes, reading
attributes from a bundle, and with a journal. -/
inductive Fills (w : Walker) : List PageEntry → Bundle → Path → List Node → Journal → Prop
  | nil {bundle above} : Fills w [] bundle above [] []
  /-- The field of an attribute. -/
  | field {name entries bundle above attr entry nodes first rest}
      (found : bundle.attribute? name = some attr)
      (built : w.Builds bundle above attr entry first)
      (others : Fills w entries bundle above nodes rest) :
      Fills w (.field name :: entries) bundle above (.field entry :: nodes) (first ++ rest)
  /-- A section over the same bundle. -/
  | synthetic {spec name entries bundle above fields nodes first rest}
      (addressed : spec.address = .ok (.synthetic name))
      (inside : Fills w spec.entries bundle (above.child name) fields first)
      (others : Fills w entries bundle above nodes rest) :
      Fills w (.page spec :: entries) bundle above
        (.page (w.sectionNode (above.child name) name fields) :: nodes)
        (w.syntheticTitles name ++ first ++ rest)
  /-- A section over the bundle that an attribute refers to. -/
  | embedded {spec address entries bundle above attr digest dep fields nodes first rest}
      (addressed : spec.address = .ok address) (embeds : ∀ name, address ≠ .synthetic name)
      (found : bundle.attribute? address.name = some attr)
      (refers : attr.type.reference? = some digest) (scalar : attr.type.isArray = false)
      (depends : w.dependency? bundle address.name = some dep)
      (inside : Fills w spec.entries dep (above.child address.name) fields first)
      (others : Fills w entries bundle above nodes rest) :
      Fills w (.page spec :: entries) bundle above
        (.page (w.sectionNode (above.child address.name) address.name fields) :: nodes)
        (w.referenceTitles address attr ++ first ++ rest)
  /-- A section with the list of an attribute. -/
  | list {spec address entries bundle above attr digest dep identifier recorded fields nodes
        first rest}
      (addressed : spec.address = .ok address) (embeds : ∀ name, address ≠ .synthetic name)
      (found : bundle.attribute? address.name = some attr)
      (refers : attr.type.reference? = some digest) (array : attr.type.isArray = true)
      (depends : w.dependency? bundle address.name = some dep)
      (identified : w.listIdentifier (above.child address.name) = ⟨.ok identifier, recorded⟩)
      (inside : Fills w spec.entries dep (above.child address.name) fields first)
      (others : Fills w entries bundle above nodes rest) :
      Fills w (.page spec :: entries) bundle above
        (.page (w.sectionNode (above.child address.name) address.name
          [.field (w.listOf attr (above.child address.name) identifier fields)]) :: nodes)
        (w.referenceTitles address attr ++ (recorded ++ first) ++ rest)

/-- The names of the page order are filled in with pages over a bundle, and
with a journal. -/
inductive FillsPages (w : Walker) (bundle : Bundle) :
    List String → List PageNode → Journal → Prop
  | nil : FillsPages w bundle [] [] []
  /-- A name without page is passed over. -/
  | missing {name names pages journal} (missing : w.presentation.findPage? name = none)
      (others : FillsPages w bundle names pages journal) :
      FillsPages w bundle (name :: names) pages (.notice (.pageMissing name) :: journal)
  | page {name names spec address fields pages first rest}
      (found : w.presentation.findPage? name = some spec) (addressed : spec.address = .ok address)
      (inside : Fills w spec.entries bundle .root fields first)
      (others : FillsPages w bundle names pages rest) :
      FillsPages w bundle (name :: names) (⟨.page, name, name, none, fields⟩ :: pages)
        (w.pageTitles address name ++ first ++ rest)

/-! ## derivations taken apart -/

section Inversion

variable {w : Walker} {entries : List PageEntry} {bundle : Bundle} {above : Path}
  {nodes : List Node} {journal : Journal} {spec : PageSpec} {page : PageNode}

/-- One node stands for each entry. -/
theorem Fills.length_eq (h : w.Fills entries bundle above nodes journal) :
    nodes.length = entries.length := by
  induction h with
  | nil => rfl
  | field | synthetic | embedded | list => simp_all

/-- What stands behind the first node has a derivation of its own. -/
theorem Fills.tail {entry : PageEntry} {node : Node}
    (h : w.Fills (entry :: entries) bundle above (node :: nodes) journal) :
    ∃ rest, w.Fills entries bundle above nodes rest := by
  cases h with
  | field found built others => exact ⟨_, others⟩
  | synthetic addressed inside others => exact ⟨_, others⟩
  | embedded addressed embeds found refers scalar depends inside others => exact ⟨_, others⟩
  | list addressed embeds found refers array depends identified inside others =>
      exact ⟨_, others⟩

/-- A synthetic page becomes a section, and its entries are filled in over the
same bundle. -/
theorem Fills.of_synthetic {name : String}
    (h : w.Fills (.page spec :: entries) bundle above (.page page :: nodes) journal)
    (addressed : spec.address = .ok (.synthetic name)) :
    ∃ fields first, page = w.sectionNode (above.child name) name fields ∧
      w.Fills spec.entries bundle (above.child name) fields first := by
  cases h with
  | synthetic addressed' inside others =>
      obtain rfl := PageAddress.synthetic.inj (Except.ok.inj (addressed.symm.trans addressed'))
      exact ⟨_, _, rfl, inside⟩
  | embedded addressed' embeds | list addressed' embeds =>
      exact absurd (Except.ok.inj (addressed'.symm.trans addressed)) (embeds name)

/-- The page of an attribute is a section over the bundle that the attribute
refers to, or it holds the list of the attribute. -/
theorem Fills.of_embeds {address : PageAddress} {attr : Attribute}
    (h : w.Fills (.page spec :: entries) bundle above (.page page :: nodes) journal)
    (addressed : spec.address = .ok address) (embeds : ∀ name, address ≠ .synthetic name)
    (found : bundle.attribute? address.name = some attr) :
    ∃ dep fields first, w.dependency? bundle address.name = some dep ∧
      w.Fills spec.entries dep (above.child address.name) fields first ∧
      ((attr.type.isArray = false ∧
          page = w.sectionNode (above.child address.name) address.name fields) ∨
        (attr.type.isArray = true ∧ ∃ identifier recorded,
          w.listIdentifier (above.child address.name) = ⟨.ok identifier, recorded⟩ ∧
          page = w.sectionNode (above.child address.name) address.name
            [.field (w.listOf attr (above.child address.name) identifier fields)])) := by
  cases h with
  | synthetic addressed' =>
      exact absurd (Except.ok.inj (addressed.symm.trans addressed')) (embeds _)
  | embedded addressed' _ found' _ scalar depends inside others =>
      obtain rfl := Except.ok.inj (addressed.symm.trans addressed')
      obtain rfl := Option.some.inj (found.symm.trans found')
      exact ⟨_, _, _, depends, inside, .inl ⟨scalar, rfl⟩⟩
  | list addressed' _ found' _ array depends identified inside others =>
      obtain rfl := Except.ok.inj (addressed.symm.trans addressed')
      obtain rfl := Option.some.inj (found.symm.trans found')
      exact ⟨_, _, _, depends, inside, .inr ⟨array, _, _, identified, rfl⟩⟩

/-- Every page is that of a name, and its nodes have a derivation. -/
theorem FillsPages.of_mem {names : List String} {pages : List PageNode}
    (h : w.FillsPages bundle names pages journal) (hpage : page ∈ pages) :
    page.name ∈ names ∧ page.kind = .page ∧ ∃ spec first,
      w.presentation.findPage? page.name = some spec ∧
      w.Fills spec.entries bundle .root page.fields first := by
  induction h with
  | nil => simp at hpage
  | missing missing others ih =>
      obtain ⟨hname, hrest⟩ := ih hpage
      exact ⟨List.mem_cons_of_mem _ hname, hrest⟩
  | page found addressed inside others ih =>
      rcases List.mem_cons.mp hpage with rfl | hpage
      · exact ⟨List.mem_cons_self, rfl, _, _, found, inside⟩
      · obtain ⟨hname, hrest⟩ := ih hpage
        exact ⟨List.mem_cons_of_mem _ hname, hrest⟩

end Inversion

/-! ## every walk has a derivation -/

section Sections

variable {w : Walker} {bundle : Bundle} {above path : Path} {attr : Attribute}
  {journal : Journal}

/-- Titles are written for each language in turn, and nothing stops that. -/
theorem writeTitles_eq_ok {entry : String → JournalEntry} {value : Unit} :
    w.writeTitles entry = ⟨.ok value, journal⟩ ↔
      journal = w.presentation.languages.map entry := by
  simp [writeTitles, eq_comm]

/-- A format is read from its tag, and reading it writes nothing. -/
theorem identifierFormat_eq_ok {hints : Hints} {format : IdentifierFormat} :
    identifierFormat path hints = ⟨.ok format, journal⟩ ↔
      hints.idFormat = some (.string format.tag) ∧ journal = [] := by
  have hformat : (hints.idFormat.bind Json.asString?).bind IdentifierFormat.ofTag? = some format ↔
      hints.idFormat = some (.string format.tag) := by
    simp [Option.bind_eq_some_iff, Json.asString?_eq_some, IdentifierFormat.ofTag?_eq_some]
  rw [← hformat, identifierFormat]
  cases (hints.idFormat.bind Json.asString?).bind IdentifierFormat.ofTag? <;> simp

/-- Only a requested identifier is written down, and only in a known
format. -/
theorem listIdentifier_cases {identifier : Option FieldEntry}
    (h : w.listIdentifier path = ⟨.ok identifier, journal⟩) :
    (w.identifierRequest? path = none ∧ identifier = none ∧ journal = []) ∨
      ∃ hints ident, w.identifierRequest? path = some (hints, ident.id) ∧
        hints.idFormat = some (.string ident.format.tag) ∧
        identifier = some (identifierEntry ident.format hints) ∧
        journal = [.identifier path ident] := by
  unfold listIdentifier at h
  split at h
  · next hrequest =>
      simp only [Walk.pure_eq, Walk.mk.injEq, Except.ok.injEq] at h
      obtain ⟨rfl, rfl⟩ := h
      exact .inl ⟨hrequest, rfl, rfl⟩
  · next hints id hrequest =>
      rw [Walk.bind_eq_ok] at h
      obtain ⟨format, nothing, last, hformat, h, rfl⟩ := h
      obtain ⟨known, rfl⟩ := identifierFormat_eq_ok.mp hformat
      rw [Walk.bind_eq_ok] at h
      obtain ⟨_, recorded, nothing', hrecorded, h, rfl⟩ := h
      obtain rfl := Walk.write_eq_ok.mp hrecorded
      simp only [Walk.pure_eq, Walk.mk.injEq, Except.ok.injEq] at h
      obtain ⟨rfl, rfl⟩ := h
      exact .inr ⟨hints, ⟨id, format⟩, hrequest, known, rfl, rfl⟩

/-- Either no identifier is asked for, or it is made and recorded. -/
theorem listIdentifier_eq_ok {identifier : Option FieldEntry}
    (h : w.listIdentifier path = ⟨.ok identifier, journal⟩) :
    (identifier = none ∧ journal = []) ∨ ∃ hints id format,
      w.identifierRequest? path = some (hints, id) ∧
      identifier = some (identifierEntry format hints) ∧
      journal = [.identifier path ⟨id, format⟩] := by
  obtain ⟨-, hnone, hempty⟩ | ⟨hints, ident, hrequest, -, hentry, hjournal⟩ :=
    listIdentifier_cases h
  · exact .inl ⟨hnone, hempty⟩
  · exact .inr ⟨hints, ident.id, ident.format, hrequest, hentry, hjournal⟩

/-- A list ends with its identifier, which is recorded before anything within
it. -/
theorem listEntry_eq_ok {elements : Walk (List Node)} {entry : FieldEntry}
    (h : w.listEntry attr path elements = ⟨.ok entry, journal⟩) :
    ∃ identifier recorded nodes inner, w.listIdentifier path = ⟨.ok identifier, recorded⟩ ∧
      elements = ⟨.ok nodes, inner⟩ ∧ entry = w.listOf attr path identifier nodes ∧
      journal = recorded ++ inner := by
  rw [listEntry, Walk.bind_eq_ok] at h
  obtain ⟨identifier, recorded, rest, hidentifier, h, rfl⟩ := h
  rw [Walk.bind_eq_ok] at h
  obtain ⟨nodes, inner, last, helements, h, rfl⟩ := h
  simp only [Walk.pure_eq, Walk.mk.injEq, Except.ok.injEq] at h
  obtain ⟨rfl, rfl⟩ := h
  exact ⟨identifier, recorded, nodes, inner, hidentifier, helements, rfl, by simp⟩

/-- The course of `sectionFields` for the page of an attribute; the outdated
key and the current one take the same way. -/
theorem sectionFields_eq {address : PageAddress} (embeds : ∀ name, address ≠ .synthetic name)
    (within : Bundle → Walk (List Node)) :
    w.sectionFields address bundle path within = (do
      warnOutdated address
      let attr ← findAttribute bundle address.name
      w.writeReferenceTitles attr (sectionTitleKey address.name)
      if attr.type.reference?.isNone then Walk.fail (.notAReference attr.name attr.type)
      else
        let dep ← w.dependency bundle address.name
        if attr.type.isArray then
          let list ← w.listEntry attr path (within dep)
          return [Node.field list]
        else within dep) := by
  cases address with
  | synthetic name => exact absurd rfl (embeds name)
  | outdated name => rfl
  | reference name => rfl

/-- What stands in the section of the page of an attribute: one list for an
array, and otherwise what the walk over its entries ends with. -/
theorem sectionFields_eq_ok {address : PageAddress} {within : Bundle → Walk (List Node)}
    {fields : List Node} (embeds : ∀ name, address ≠ .synthetic name)
    (h : w.sectionFields address bundle path within = ⟨.ok fields, journal⟩) :
    ∃ attr digest dep, bundle.attribute? address.name = some attr ∧
      attr.type.reference? = some digest ∧ w.dependency? bundle address.name = some dep ∧
      ((attr.type.isArray = false ∧ ∃ inner, within dep = ⟨.ok fields, inner⟩ ∧
          journal = w.referenceTitles address attr ++ inner) ∨
        (attr.type.isArray = true ∧ ∃ identifier recorded nodes inner,
          w.listIdentifier path = ⟨.ok identifier, recorded⟩ ∧ within dep = ⟨.ok nodes, inner⟩ ∧
          fields = [.field (w.listOf attr path identifier nodes)] ∧
          journal = w.referenceTitles address attr ++ (recorded ++ inner))) := by
  -- The section is walked in order: warning, attribute, titles, dependency.
  rw [sectionFields_eq embeds, Walk.bind_eq_ok] at h
  obtain ⟨_, warned, last, hwarned, h, rfl⟩ := h
  obtain rfl := Walk.notify_eq_ok.mp hwarned
  rw [Walk.bind_eq_ok] at h
  obtain ⟨attr, nothing, last, hfound, h, rfl⟩ := h
  obtain ⟨found, rfl⟩ := findAttribute_eq_ok.mp hfound
  rw [writeReferenceTitles, bind_assoc, Walk.bind_eq_ok] at h
  obtain ⟨_, unlabelled, last, hunlabelled, h, rfl⟩ := h
  obtain rfl := Walk.notify_eq_ok.mp hunlabelled
  rw [Walk.bind_eq_ok] at h
  obtain ⟨_, titles, last, htitles, h, rfl⟩ := h
  obtain rfl := writeTitles_eq_ok.mp htitles
  split at h
  · simp at h
  · next hrefers =>
      obtain ⟨digest, refers⟩ : ∃ digest, attr.type.reference? = some digest := by
        simpa [Option.ne_none_iff_exists'] using hrefers
      rw [Walk.bind_eq_ok] at h
      obtain ⟨dep, nothing, last, hdep, h, rfl⟩ := h
      obtain ⟨depends, rfl⟩ := dependency_eq_ok.mp hdep
      refine ⟨attr, digest, dep, found, refers, depends, ?_⟩
      split at h
      · next array =>
          rw [Walk.bind_eq_ok] at h
          obtain ⟨list, inner, last, hlist, h, rfl⟩ := h
          simp only [Walk.pure_eq, Walk.mk.injEq, Except.ok.injEq] at h
          obtain ⟨rfl, rfl⟩ := h
          obtain ⟨identifier, recorded, nodes, inner, identified, inside, rfl, rfl⟩ :=
            listEntry_eq_ok hlist
          exact .inr ⟨array, identifier, recorded, nodes, inner, identified, inside, rfl,
            by simp [referenceTitles]⟩
      · next scalar =>
          exact .inl ⟨Bool.eq_false_iff.mpr scalar, _, h, by simp [referenceTitles]⟩

/-- The section of a page, once the walk over its entries has a derivation. -/
theorem fills_of_sectionPage {spec : PageSpec} {address : PageAddress}
    {within : Path → Bundle → Walk (List Node)} {page : PageNode} {entries : List PageEntry}
    {nodes : List Node} {rest : Journal}
    (hwithin : ∀ path bundle nodes journal, within path bundle = ⟨.ok nodes, journal⟩ →
      w.Fills spec.entries bundle path nodes journal)
    (addressed : spec.address = .ok address)
    (h : w.sectionPage address bundle above within = ⟨.ok page, journal⟩)
    (others : w.Fills entries bundle above nodes rest) :
    w.Fills (.page spec :: entries) bundle above (.page page :: nodes) (journal ++ rest) := by
  rw [sectionPage, Walk.bind_eq_ok] at h
  obtain ⟨fields, first, last, hfields, h, rfl⟩ := h
  simp only [Walk.pure_eq, Walk.mk.injEq, Except.ok.injEq] at h
  obtain ⟨rfl, rfl⟩ := h
  rw [List.append_nil]
  obtain ⟨name, rfl⟩ | embeds := address.synthetic_or_embeds
  · rw [sectionFields, Walk.bind_eq_ok] at hfields
    obtain ⟨_, titles, inner, htitles, hinside, rfl⟩ := hfields
    obtain rfl := writeTitles_eq_ok.mp htitles
    exact .synthetic addressed (hwithin _ _ _ _ hinside) others
  · obtain ⟨attr, digest, dep, found, refers, depends,
      ⟨scalar, inner, inside, rfl⟩ |
      ⟨array, identifier, recorded, elements, inner, identified, inside, rfl, rfl⟩⟩ :=
      sectionFields_eq_ok embeds hfields
    · exact .embedded addressed embeds found refers scalar depends (hwithin _ _ _ _ inside) others
    · exact .list addressed embeds found refers array depends identified
        (hwithin _ _ _ _ inside) others

end Sections

mutual

/-- Every list of nodes that a walk over entries ends with has a derivation. -/
theorem fills_of_walkEntries {w : Walker} : (entries : List PageEntry) → {bundle : Bundle} →
    {above : Path} → {nodes : List Node} → {journal : Journal} →
    w.walkEntries entries bundle above = ⟨.ok nodes, journal⟩ →
    w.Fills entries bundle above nodes journal
  | [], bundle, above, nodes, journal, h => by
      simp only [walkEntries, Walk.pure_eq, Walk.mk.injEq, Except.ok.injEq] at h
      obtain ⟨rfl, rfl⟩ := h
      exact .nil
  | entry :: entries, bundle, above, nodes, journal, h => by
      rw [walkEntries, Walk.bind_eq_ok] at h
      obtain ⟨node, first, last, hnode, h, rfl⟩ := h
      rw [Walk.bind_eq_ok] at h
      obtain ⟨others, rest, nothing, hothers, h, rfl⟩ := h
      simp only [Walk.pure_eq, Walk.mk.injEq, Except.ok.injEq] at h
      obtain ⟨rfl, rfl⟩ := h
      rw [List.append_nil]
      exact fills_of_walkEntry entry hnode (fills_of_walkEntries entries hothers)

/-- The node of an entry goes before those of the entries behind it. -/
theorem fills_of_walkEntry {w : Walker} : (entry : PageEntry) → {bundle : Bundle} →
    {above : Path} → {node : Node} → {journal : Journal} →
    w.walkEntry entry bundle above = ⟨.ok node, journal⟩ →
    {entries : List PageEntry} → {nodes : List Node} → {rest : Journal} →
    w.Fills entries bundle above nodes rest →
    w.Fills (entry :: entries) bundle above (node :: nodes) (journal ++ rest)
  | .field name, bundle, above, node, journal, h, entries, nodes, rest, others => by
      rw [walkEntry, Walk.bind_eq_ok] at h
      obtain ⟨attr, nothing, last, hfound, h, rfl⟩ := h
      obtain ⟨found, rfl⟩ := findAttribute_eq_ok.mp hfound
      rw [Walk.bind_eq_ok] at h
      obtain ⟨built, first, nothing, hbuilt, h, rfl⟩ := h
      simp only [Walk.pure_eq, Walk.mk.injEq, Except.ok.injEq] at h
      obtain ⟨rfl, rfl⟩ := h
      rw [List.nil_append, List.append_nil]
      exact .field found (builds_of_fieldEntry hbuilt) others
  | .page spec, bundle, above, node, journal, h, entries, nodes, rest, others => by
      rw [walkEntry, Walk.bind_eq_ok] at h
      obtain ⟨page, first, nothing, hpage, h, rfl⟩ := h
      simp only [Walk.pure_eq, Walk.mk.injEq, Except.ok.injEq] at h
      obtain ⟨rfl, rfl⟩ := h
      rw [List.append_nil]
      exact fills_of_nestedPage spec hpage others

/-- The section of a page goes before the nodes of the entries behind it. -/
theorem fills_of_nestedPage {w : Walker} : (spec : PageSpec) → {bundle : Bundle} →
    {above : Path} → {page : PageNode} → {journal : Journal} →
    w.nestedPage spec bundle above = ⟨.ok page, journal⟩ →
    {entries : List PageEntry} → {nodes : List Node} → {rest : Journal} →
    w.Fills entries bundle above nodes rest →
    w.Fills (.page spec :: entries) bundle above (.page page :: nodes) (journal ++ rest)
  | ⟨name, reference, synthetic, inside⟩, bundle, above, page, journal, h, entries, nodes, rest,
      others => by
      rw [nestedPage, Walk.bind_eq_ok] at h
      obtain ⟨address, nothing, last, haddress, h, rfl⟩ := h
      obtain ⟨addressed, rfl⟩ := Walk.ofExcept_eq_ok.mp haddress
      exact fills_of_sectionPage
        (fun path bundle nodes journal hinside => fills_of_walkEntries inside hinside)
        addressed h others

end

/-- Every list of pages that a walk over names ends with has a derivation. -/
theorem fillsPages_of_orderedPages {w : Walker} {bundle : Bundle} {names : List String}
    {pages : List PageNode} {journal : Journal}
    (h : w.orderedPages bundle names = ⟨.ok pages, journal⟩) :
    w.FillsPages bundle names pages journal := by
  induction names generalizing pages journal with
  | nil =>
      simp only [orderedPages, Walk.pure_eq, Walk.mk.injEq, Except.ok.injEq] at h
      obtain ⟨rfl, rfl⟩ := h
      exact .nil
  | cons name names ih =>
      rw [orderedPages] at h
      split at h
      · next missing =>
          rw [Walk.bind_eq_ok] at h
          obtain ⟨_, noticed, rest, hnoticed, h, rfl⟩ := h
          obtain rfl := Walk.notify_eq_ok.mp hnoticed
          exact .missing missing (ih h)
      · next spec found =>
          rw [Walk.bind_eq_ok] at h
          obtain ⟨page, first, last, hpage, h, rfl⟩ := h
          rw [Walk.bind_eq_ok] at h
          obtain ⟨others, rest, nothing, hothers, h, rfl⟩ := h
          simp only [Walk.pure_eq, Walk.mk.injEq, Except.ok.injEq] at h
          obtain ⟨rfl, rfl⟩ := h
          rw [topLevelPage, Walk.bind_eq_ok] at hpage
          obtain ⟨address, nothing, last, haddress, h, rfl⟩ := hpage
          obtain ⟨addressed, rfl⟩ := Walk.ofExcept_eq_ok.mp haddress
          rw [Walk.bind_eq_ok] at h
          obtain ⟨_, warned, last, hwarned, h, rfl⟩ := h
          obtain rfl := Walk.notify_eq_ok.mp hwarned
          rw [Walk.bind_eq_ok] at h
          obtain ⟨_, titles, last, htitles, h, rfl⟩ := h
          obtain rfl := writeTitles_eq_ok.mp htitles
          rw [Walk.bind_eq_ok] at h
          obtain ⟨fields, inner, nothing, hfields, h, rfl⟩ := h
          simp only [Walk.pure_eq, Walk.mk.injEq, Except.ok.injEq] at h
          obtain ⟨rfl, rfl⟩ := h
          have hfills := FillsPages.page found addressed (fills_of_walkEntries _ hfields)
            (ih hothers)
          simpa [pageTitles] using hfills

end Walker

end FormCompiler
