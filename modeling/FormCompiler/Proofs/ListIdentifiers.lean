import FormCompiler.Proofs.IdentifierPaths
import FormCompiler.Proofs.SiteOrigins

/-!
# FormCompiler.Proofs.ListIdentifiers

How the items of lists are identified.  The hints at the path of a list ask
for an identifier (`Hints.RequestsIdentifier`); the answer stands in two
places, as the hidden field at the end of the list and as a record of the
identifier tree at the same path.

Going down a page, a record is written exactly for a list with such hints
(`Walker.Fills.identifier_mem_iff`), and all records for one path are the
same, since they come from the same hints.  So the tree holds the records
of the lists of the form and no others, however often a path is visited
(`CompileRequest.identifiers_agree`).
-/

namespace FormCompiler

/-! ## requests -/

namespace Hints

/-- The hints ask for an identifier of the items of a list. -/
def RequestsIdentifier (hints : Hints) (id : Json) : Prop :=
  hints.widget = some "list" ∧ hints.id = some id ∧ id.isTruthy = true

/-- The hints ask for an identifier and name its format. -/
def Identifies (hints : Hints) (ident : ListIdentifier) : Prop :=
  hints.RequestsIdentifier ident.id ∧ hints.idFormat = some (.string ident.format.tag)

/-- The widget of a list is the text "list" and nothing else. -/
theorem uses_list_iff (hints : Hints) :
    (WidgetProperties.ofHints hints).uses .list = true ↔ hints.widget = some "list" :=
  WidgetProperties.uses_ofHints_iff (by decide)

/-- Hints ask for one identifier at most. -/
theorem Identifies.unique {hints : Hints} {ident ident' : ListIdentifier}
    (h : hints.Identifies ident) (h' : hints.Identifies ident') : ident = ident' := by
  obtain ⟨⟨-, hid, -⟩, hformat⟩ := h
  obtain ⟨⟨-, hid', -⟩, hformat'⟩ := h'
  have hids := Option.some.inj (hid.symm.trans hid')
  have htags := Json.string.inj (Option.some.inj (hformat'.symm.trans hformat))
  have hformats := Option.some.inj ((IdentifierFormat.ofTag?_eq_some.mpr rfl).symm.trans
    (IdentifierFormat.ofTag?_eq_some.mpr htags))
  cases ident
  cases ident'
  exact congrArg₂ ListIdentifier.mk hids hformats.symm

end Hints

/-! ## lists among sites -/

def Site.ListAt (sites : List (Path × Site)) (path : Path) : Prop :=
  ∃ list, (path, .list list) ∈ sites

@[simp] theorem Site.listAt_nil (path : Path) : Site.ListAt [] path ↔ False := by
  simp [ListAt]

@[simp] theorem Site.listAt_append (first second : List (Path × Site)) (path : Path) :
    Site.ListAt (first ++ second) path ↔ Site.ListAt first path ∨ Site.ListAt second path := by
  simp [ListAt, exists_or]

@[simp] theorem Site.listAt_cons (place : Path) (site : Site) (sites : List (Path × Site))
    (path : Path) :
    Site.ListAt ((place, site) :: sites) path ↔
      (path = place ∧ ∃ list, site = .list list) ∨ Site.ListAt sites path := by
  simp [ListAt, exists_or, eq_comm]

namespace Walker

section Fields

variable {w : Walker} {bundle : Bundle} {above path : Path} {declared : Attribute}
  {built entry : FieldEntry} {journal : Journal} {ident : ListIdentifier}

/-- The walk finds a request exactly where the hints make one. -/
theorem identifierRequest?_eq_some {hints : Hints} {id : Json} :
    w.identifierRequest? path = some (hints, id) ↔
      w.hints? path = some hints ∧ hints.RequestsIdentifier id := by
  simp only [identifierRequest?, Option.bind_eq_bind, Option.bind_eq_some_iff,
    Option.filter_eq_some_iff, Hints.uses_list_iff, Hints.RequestsIdentifier, Option.pure_def,
    Option.some.injEq, Prod.mk.injEq]
  constructor
  · rintro ⟨_, ⟨hhints, hwidget⟩, _, ⟨hid, htruthy⟩, rfl, rfl⟩
    exact ⟨hhints, hwidget, hid, htruthy⟩
  · rintro ⟨hhints, hwidget, hid, htruthy⟩
    exact ⟨hints, ⟨hhints, hwidget⟩, id, ⟨hid, htruthy⟩, rfl, rfl⟩

/-- What the hints at a path ask for. -/
def Identifies (w : Walker) (path : Path) (ident : ListIdentifier) : Prop :=
  ∃ hints, w.hints? path = some hints ∧ hints.Identifies ident

/-- A path has hints once, so they ask for one identifier. -/
theorem Identifies.unique {ident' : ListIdentifier} (h : w.Identifies path ident)
    (h' : w.Identifies path ident') : ident = ident' := by
  obtain ⟨hints, hhints, hident⟩ := h
  obtain ⟨hints', hhints', hident'⟩ := h'
  obtain rfl := Option.some.inj (hhints.symm.trans hhints')
  exact hident.unique hident'

section Lists

variable {identifier : Option FieldEntry}

/-- An identifier is made exactly if the hints ask for one. -/
theorem isSome_listIdentifier_iff (h : w.listIdentifier path = ⟨.ok identifier, journal⟩) :
    identifier.isSome = true ↔
      ∃ hints id, w.hints? path = some hints ∧ hints.RequestsIdentifier id := by
  obtain ⟨hnone, rfl, -⟩ | ⟨hints, ident, hrequest, -, rfl, -⟩ := listIdentifier_cases h
  · refine ⟨fun hsome => absurd hsome (by simp), fun ⟨hints, id, hrequests⟩ => ?_⟩
    rw [identifierRequest?_eq_some.mpr hrequests] at hnone
    contradiction
  · exact ⟨fun _ => ⟨hints, ident.id, identifierRequest?_eq_some.mp hrequest⟩, fun _ => rfl⟩

/-- A request that is met names a known format, and the hidden field is of that
format. -/
theorem listIdentifier_of_requests (h : w.listIdentifier path = ⟨.ok identifier, journal⟩)
    {hints : Hints} {id : Json} (hhints : w.hints? path = some hints)
    (hrequests : hints.RequestsIdentifier id) :
    ∃ format, hints.idFormat = some (.string format.tag) ∧
      identifier = some (identifierEntry format hints) := by
  have hrequest := identifierRequest?_eq_some.mpr ⟨hhints, hrequests⟩
  obtain ⟨hnone, -⟩ | ⟨hints', ident, hrequest', hformat, hidentifier, -⟩ := listIdentifier_cases h
  · rw [hrequest] at hnone
    contradiction
  · obtain ⟨rfl, rfl⟩ := Prod.mk.inj (Option.some.inj (hrequest.symm.trans hrequest'))
    exact ⟨ident.format, hformat, hidentifier⟩

end Lists

/-! ## what fields write down -/

theorem identifier_notMem (h : ∀ entry ∈ journal, entry.isRemark = true) :
    .identifier path ident ∉ journal :=
  JournalEntry.notMem_of_isRemark rfl h

theorem Builds.identifier_notMem (h : w.Builds bundle above declared built journal) :
    .identifier path ident ∉ journal := by
  intro hmem
  obtain ⟨place, attr, hline⟩ | ⟨notice, hline⟩ := h.mem_journal_cases hmem <;> contradiction

/-- No list stands at the field of an attribute, nor within it. -/
theorem Builds.not_listAt (h : w.Builds bundle above declared entry journal) (behind : List Node) :
    ¬ Site.ListAt (entry.sites (Site.onPage entry behind) above) path := by
  rw [FieldEntry.sites_eq, h.placedAt_eq (.refl _), Site.onPage, if_neg (by simp [h.isList_eq]),
    Site.listAt_cons]
  rintro (⟨-, list, hlist⟩ | ⟨list, hwithin⟩)
  · contradiction
  · cases h.origin_of_mem (.refl _) hwithin with
    | list identified inside placed =>
        obtain ⟨-, -, -, hnot⟩ := placed.sound h (.refl _)
        contradiction

end Fields

/-! ## what pages write down -/

section Pages

variable {w : Walker} {entries : List PageEntry} {bundle : Bundle} {above path place : Path}
  {nodes : List Node} {journal : Journal} {ident : ListIdentifier}
  {identifier : Option FieldEntry}

/-- What a list records is the identifier that the hints at its path ask for.
-/
theorem identifier_mem_recorded_iff (h : w.listIdentifier place = ⟨.ok identifier, journal⟩) :
    .identifier path ident ∈ journal ↔ path = place ∧ w.Identifies place ident := by
  obtain ⟨hnone, -, rfl⟩ | ⟨hints, recorded, hrequest, hformat, -, rfl⟩ := listIdentifier_cases h
  · refine ⟨fun hmem => absurd hmem (by simp), fun ⟨_, hints, hhints, hrequests, _⟩ => ?_⟩
    rw [identifierRequest?_eq_some.mpr ⟨hhints, hrequests⟩] at hnone
    contradiction
  · obtain ⟨hhints, hrequests⟩ := identifierRequest?_eq_some.mp hrequest
    have hrecorded : w.Identifies place recorded := ⟨hints, hhints, hrequests, hformat⟩
    rw [List.mem_singleton, JournalEntry.identifier.injEq]
    constructor
    · rintro ⟨rfl, rfl⟩
      exact ⟨rfl, hrecorded⟩
    · rintro ⟨rfl, hident⟩
      exact ⟨rfl, hident.unique hrecorded⟩

/-- The records that filling in a page writes down are those of its lists
whose hints ask for one. -/
theorem Fills.identifier_mem_iff (h : w.Fills entries bundle above nodes journal) :
    .identifier path ident ∈ journal ↔
      Site.ListAt (Node.sites Site.onPage above nodes) path ∧ w.Identifies path ident := by
  induction h with
  | nil => simp [Node.sites]
  | field found built others ih =>
      rw [Node.sites, Site.listAt_append, List.mem_append, ih, or_iff_right built.identifier_notMem,
        or_iff_right (built.not_listAt _)]
  | synthetic addressed inside others ihInside ihOthers =>
      rw [Node.sites, PageNode.sites_eq, List.mem_append, List.mem_append, ihInside, ihOthers,
        or_iff_right (identifier_notMem fun _ => isRemark_of_mem_syntheticTitles)]
      simp [sectionNode, or_and_right]
  | embedded addressed embeds found refers scalar depends inside others ihInside ihOthers =>
      rw [Node.sites, PageNode.sites_eq, List.mem_append, List.mem_append, ihInside, ihOthers,
        or_iff_right (identifier_notMem fun _ => isRemark_of_mem_referenceTitles)]
      simp [sectionNode, or_and_right]
  | @list spec address entries bundle above attr digest dep identifier recorded fields nodes first
      rest addressed embeds found refers array depends identified inside others ihInside
      ihOthers =>
      have hidentifier : ¬ Site.ListAt (identifier.toList.map fun entry =>
          ((above.child address.name).child IdentifierTree.identifierKey,
            Site.identifier entry)) path := by
        simp [Site.ListAt]
      -- The record of the list itself stands at the path of its section.
      have hself : path = above.child address.name ∧
            w.Identifies (above.child address.name) ident ↔
          path = above.child address.name ∧ w.Identifies path ident :=
        and_congr_right fun hpath => by rw [hpath]
      rw [Node.sites, name_sectionNode, sites_listSection inside identified, List.mem_append,
        List.mem_append, List.mem_append, identifier_mem_recorded_iff identified, hself, ihInside,
        ihOthers, or_iff_right (identifier_notMem fun _ => isRemark_of_mem_referenceTitles)]
      simp [hidentifier, or_and_right, or_assoc]

/-- Over all pages, records are written exactly for the lists with such hints.
-/
theorem FillsPages.identifier_mem_iff {names : List String} {pages : List PageNode}
    (h : w.FillsPages bundle names pages journal) :
    .identifier path ident ∈ journal ↔
      Site.ListAt (Form.sites ⟨pages⟩) path ∧ w.Identifies path ident := by
  induction h with
  | nil => simp [Form.sites]
  | missing missing others ih => simpa using ih
  | page found addressed inside others ih =>
      rw [List.mem_append, List.mem_append, inside.identifier_mem_iff, ih,
        or_iff_right (identifier_notMem fun _ => isRemark_of_mem_pageTitles)]
      simp [Form.sites, or_and_right]

/-! ## what lists end with -/

/-- A list that was filled in ends with the identifier that was made for it,
and with none otherwise. -/
theorem identifier?_listOf {attr : Attribute} (h : w.Fills entries bundle path nodes journal)
    {recorded : Journal} (identified : w.listIdentifier path = ⟨.ok identifier, recorded⟩) :
    (w.listOf attr path identifier nodes).descriptor.identifier? = identifier := by
  obtain ⟨-, rfl, -⟩ | ⟨hints, ident, -, -, rfl, -⟩ := listIdentifier_cases identified
  · simp only [listOf, Option.toList_none, List.map_nil, List.append_nil, Descriptor.identifier?]
    split
    · next entry hlast =>
        have hvisible := h.isHidden_eq (List.mem_of_getLast? hlast)
        simp [FieldEntry.isIdentifier, hvisible]
    · rfl
  · simp [listOf, Descriptor.identifier?, FieldEntry.isIdentifier, identifierEntry,
      Descriptor.isHidden]

/-- The hidden field of a list is what was made of the hints at its path. -/
theorem Origin.listIdentifier_eq {Placed : Placement → Prop} {list : FieldEntry}
    (h : w.Origin Placed path (.list list)) :
    ∃ recorded, w.listIdentifier path = ⟨.ok list.descriptor.identifier?, recorded⟩ := by
  cases h with
  | list identified inside placed =>
      rw [identifier?_listOf inside identified]
      exact ⟨_, identified⟩

end Pages

end Walker

/-! ## compiled forms -/

namespace CompileRequest

variable {request : CompileRequest} {options : CompileOptions} {compiled : CompiledForm}
  {path : Path} {ident : ListIdentifier}

theorem sorted_identifiers (h : request.compile options = .ok compiled) :
    compiled.identifiers.Sorted := by
  obtain ⟨-, journal, -, -, htables⟩ := compile_eq_ok h
  have hidentifiers : _ = compiled.identifiers := congrArg SideTables.identifiers htables
  rw [← hidentifiers]
  exact SideTables.sorted_identifiers_replay IdentifierTree.sorted_empty _

/-- The identifier tree has what the hints of the lists of the form ask
for. -/
theorem find?_identifiers_iff (h : request.compile options = .ok compiled) :
    compiled.identifiers.find? path = some ident ↔
      Site.ListAt compiled.form.sites path ∧
        (request.resolvedWalker options).Identifies path ident := by
  obtain ⟨-, journal, hfills, -, htables⟩ := compile_eq_ok h
  have hmem : ∀ ident, JournalEntry.identifier path ident ∈
      journal ++ [.bundleTexts request.bundle] ↔
        Site.ListAt compiled.form.sites path ∧
          (request.resolvedWalker options).Identifies path ident := fun ident => by
    simpa using hfills.identifier_mem_iff
  have hidentifiers : _ = compiled.identifiers := congrArg SideTables.identifiers htables
  rw [← hidentifiers, ← hmem]
  refine SideTables.find?_identifiers_replay_iff IdentifierTree.sorted_empty
    (IdentifierTree.find?_empty path) ?_
  -- A path may be visited more than once, each time under the same hints.
  intro first second hfirst hsecond
  exact ((hmem first).mp hfirst).2.unique ((hmem second).mp hsecond).2

/-- The hidden fields of a form and its identifier tree agree: a list ends
with an identifier exactly if its hints ask for one, in the format that they
name, and the tree holds the same at the path of the list.  The tree holds
nothing else, and no other entry of the form is hidden. -/
theorem identifiers_agree (h : request.compile options = .ok compiled) :
    (∀ path list, (path, .list list) ∈ compiled.form.sites →
      (list.descriptor.identifier?.isSome = true ↔
        ∃ hints id, request.hints? path = some hints ∧ hints.RequestsIdentifier id) ∧
      ∀ hints id, request.hints? path = some hints → hints.RequestsIdentifier id →
        ∃ format entry, hints.idFormat = some (.string format.tag) ∧
          list.descriptor.identifier? = some entry ∧
          entry.descriptor = .hidden format hints.onItemRemove ∧
          compiled.identifiers.find? path = some ⟨id, format⟩) ∧
    (∀ path ident, (path, ident) ∈ compiled.identifiers.records →
      ∃ list hints, (path, .list list) ∈ compiled.form.sites ∧
        request.hints? path = some hints ∧ hints.RequestsIdentifier ident.id) ∧
    (∀ path site entry, (path, site) ∈ compiled.form.sites → site.item? = some entry →
      entry.descriptor.isHidden = true → site = .identifier entry) := by
  refine ⟨fun path list hlist => ?_, fun path ident hrecord => ?_, ?_⟩
  · have hat : Site.ListAt compiled.form.sites path := ⟨list, hlist⟩
    obtain ⟨recorded, identified⟩ := (origin_of_mem_sites h hlist).listIdentifier_eq
    refine ⟨Walker.isSome_listIdentifier_iff identified, fun hints id hhints hrequests => ?_⟩
    obtain ⟨format, hformat, hlast⟩ :=
      Walker.listIdentifier_of_requests identified hhints hrequests
    exact ⟨format, _, hformat, hlast, rfl,
      (find?_identifiers_iff h).mpr ⟨hat, hints, hhints, hrequests, hformat⟩⟩
  · obtain ⟨⟨list, hlist⟩, hints, hhints, hrequests, -⟩ := (find?_identifiers_iff h).mp
      ((IdentifierTree.mem_records (sorted_identifiers h)).mp hrecord)
    exact ⟨list, hints, hlist, hhints, hrequests⟩
  · exact fun path site entry hsite => (origin_of_mem_sites h hsite).eq_identifier

/-- A list within a list, identified on its own. -/
theorem identifiers_agree_of_nested :
    let hints : Hints :=
      { Hints.none with
        widget := some "list", id := some (.boolean true), idFormat := some (.string "bigint") }
    let request : CompileRequest :=
      { bundle := ⟨"Eperson", [.bare "orders" (.array (.reference "Eorder"))], .empty⟩
        dependencies :=
          [⟨"Eorder", [.bare "items" (.array (.reference "Eitem"))], .empty⟩,
            ⟨"Eitem", [.bare "sku" (.scalar (.primitive .text))], .empty⟩]
        presentation :=
          { bundleDigest := "Eperson", digest := none, languages := ["eng"]
            pages := [⟨none, none, some "main", [.page ⟨none, some "orders", none,
              [.page ⟨none, some "items", none, [.field "sku"]⟩]⟩]⟩]
            pageOrder := ["main"], pageLabels := .empty
            interactions := [⟨"web", "capture", .ofList [("orders.items", hints)]⟩] }
        conditionals := .empty
        readonly := [] }
    ∃ compiled list entry, request.compile default = .ok compiled ∧
      (Path.parse "orders.items", .list list) ∈ compiled.form.sites ∧
      list.descriptor.identifier? = some entry ∧ entry.descriptor = .hidden .bigint none ∧
      compiled.identifiers.find? (Path.parse "orders.items") =
        some ⟨.boolean true, .bigint⟩ := by
  intro hints request
  obtain ⟨compiled, ⟨path, site⟩, hcompile, hsite, hfound⟩ :=
    exists_mem_of_compile request default (fun compiled => compiled.form.sites)
      (fun site => site.1 == Path.parse "orders.items" && site.2.isList) (by decide +kernel)
  obtain ⟨rfl, hlist⟩ : path = Path.parse "orders.items" ∧ site.isList = true := by
    simpa using hfound
  obtain ⟨list, rfl⟩ := Site.isList_iff.mp hlist
  have hhints : request.hints? (Path.parse "orders.items") = some hints := rfl
  obtain ⟨format, entry, hformat, hlast, hentry, hrecord⟩ :=
    ((identifiers_agree hcompile).1 _ list hsite).2 hints (.boolean true) hhints
      ⟨rfl, rfl, rfl⟩
  obtain rfl : format = .bigint := by
    cases format with
    | uuid => exact absurd (Json.string.inj (Option.some.inj hformat)) (by decide)
    | bigint => rfl
  exact ⟨compiled, list, entry, hcompile, hsite, hlast, hentry, hrecord⟩

end CompileRequest

end FormCompiler
