import FormCompiler.Proofs.Compilation

/-!
# FormCompiler.Proofs.Mirror

A form mirrors its presentation.  `Registry.Mirrors` sets the nodes of a page
beside the entries of the page, one by one and without a walk.  What it
knows of the bundles is the attribute of a name and the loaded bundle that
the attribute points at.  The pages of a compiled form are those of the page
order that the presentation has, and each of them mirrors its entries over
the presented bundle (`CompileRequest.form_mirrors_presentation`).
-/

namespace FormCompiler

/-! ## the names of a page -/

namespace PageSpec

variable {spec : PageSpec} {address : PageAddress}

/-- The names that its keys give a page. -/
def namingKeys (spec : PageSpec) : List String :=
  spec.name.toList ++ spec.reference.toList ++ spec.synthetic.toList

/-- A page with an address has one name, and the key for synthetic pages
only if it is one. -/
theorem keys_of_address (h : spec.address = .ok address) : spec.namingKeys = [address.name] ∧
    ∀ name, spec.synthetic = some name ↔ address = .synthetic name := by
  obtain ⟨name, reference, synthetic, entries⟩ := spec
  unfold PageSpec.address at h
  split at h
  all_goals cases h
  all_goals simp_all [namingKeys, PageAddress.name]

/-- The page of a reference does not have the key for synthetic pages. -/
theorem synthetic_of_embeds (h : spec.address = .ok address)
    (embeds : ∀ name, address ≠ .synthetic name) : spec.synthetic = none := by
  refine Option.eq_none_iff_forall_ne_some.mpr fun name hname => ?_
  exact embeds name (((keys_of_address h).2 name).mp hname)

end PageSpec

/-! ## mirrors -/

/-- The section of a name. -/
def PageNode.IsSection (page : PageNode) (name : String) : Prop :=
  page.kind = .struct ∧ page.name = name

/-- At most one node, which is the hidden field of a list. -/
def IsHiddenIdentifier (nodes : List Node) : Prop :=
  nodes = [] ∨ ∃ entry format onItemRemove, nodes = [.field entry] ∧
    entry.name = IdentifierTree.identifierKey ∧ entry.descriptor = .hidden format onItemRemove

namespace Registry

/-- The nodes mirror the entries of a page that reads its attributes from a
bundle: one node stands for each entry, in the same order. -/
inductive Mirrors (registry : Registry) : Bundle → List PageEntry → List Node → Prop
  | nil {bundle} : Mirrors registry bundle [] []
  /-- A name is a field of this name. -/
  | field {bundle name entries entry nodes} (named : entry.name = name)
      (others : Mirrors registry bundle entries nodes) :
      Mirrors registry bundle (.field name :: entries) (.field entry :: nodes)
  /-- A synthetic page is a section over the same bundle. -/
  | synthetic {bundle spec name entries page nodes} (single : spec.namingKeys = [name])
      (grouped : spec.synthetic = some name) (titled : page.IsSection name)
      (inside : Mirrors registry bundle spec.entries page.fields)
      (others : Mirrors registry bundle entries nodes) :
      Mirrors registry bundle (.page spec :: entries) (.page page :: nodes)
  /-- The page of a reference is a section over the bundle referred to. -/
  | embedded {bundle spec name entries attr dep page nodes} (single : spec.namingKeys = [name])
      (embeds : spec.synthetic = none) (found : bundle.attribute? name = some attr)
      (scalar : attr.type.isArray = false) (target : registry.target? bundle name = some dep)
      (titled : page.IsSection name) (inside : Mirrors registry dep spec.entries page.fields)
      (others : Mirrors registry bundle entries nodes) :
      Mirrors registry bundle (.page spec :: entries) (.page page :: nodes)
  /-- The page of an array of references is a section with one list, whose
  elements mirror the entries; a hidden field may stand behind them. -/
  | list {bundle spec name entries attr dep page nodes list cardinality elements hidden}
      (single : spec.namingKeys = [name]) (embeds : spec.synthetic = none)
      (found : bundle.attribute? name = some attr) (array : attr.type.isArray = true)
      (target : registry.target? bundle name = some dep) (titled : page.IsSection name)
      (only : page.fields = [.field list]) (listed : list.name = attr.name)
      (described : list.descriptor = .list cardinality (elements ++ hidden))
      (identified : IsHiddenIdentifier hidden)
      (inside : Mirrors registry dep spec.entries elements)
      (others : Mirrors registry bundle entries nodes) :
      Mirrors registry bundle (.page spec :: entries) (.page page :: nodes)

end Registry

/-! ## what a walk fills in mirrors the entries -/

namespace Walker

variable {w : Walker} {base bundle : Bundle}

theorem isHiddenIdentifier_of_listIdentifier {path : Path} {identifier : Option FieldEntry}
    {journal : Journal} (h : w.listIdentifier path = ⟨.ok identifier, journal⟩) :
    IsHiddenIdentifier (identifier.toList.map .field) := by
  obtain ⟨rfl, -⟩ | ⟨hints, id, format, -, rfl, -⟩ := listIdentifier_eq_ok h
  · exact .inl rfl
  · exact .inr ⟨_, format, hints.onItemRemove, rfl, rfl, rfl⟩

/-- The induction carries that the bundle is reached from the base, since
only there the walk finds what the registry has. -/
theorem mirrors_of_fills (hw : w.registry.resolve base = .ok w.references)
    {entries : List PageEntry} {above : Path} {nodes : List Node} {journal : Journal}
    (h : w.Fills entries bundle above nodes journal) (hbundle : w.registry.Reaches base bundle) :
    w.registry.Mirrors bundle entries nodes := by
  induction h with
  | nil => exact .nil
  | field found built others ih =>
      exact .field (built.name_eq.trans (Bundle.name_of_attribute? found)) (ih hbundle)
  | synthetic addressed inside others ihInside ihOthers =>
      obtain ⟨single, groups⟩ := PageSpec.keys_of_address addressed
      exact .synthetic single ((groups _).mpr rfl) ⟨rfl, rfl⟩ (ihInside hbundle)
        (ihOthers hbundle)
  | embedded addressed embeds found refers scalar depends inside others ihInside ihOthers =>
      have hdep := reaches_of_dependency? hw hbundle depends
      rw [dependency?_eq_target? hw hbundle] at depends
      exact .embedded (PageSpec.keys_of_address addressed).1
        (PageSpec.synthetic_of_embeds addressed embeds) found scalar depends ⟨rfl, rfl⟩
        (ihInside hdep) (ihOthers hbundle)
  | list addressed embeds found refers array depends identified inside others ihInside
      ihOthers =>
      have hdep := reaches_of_dependency? hw hbundle depends
      rw [dependency?_eq_target? hw hbundle] at depends
      exact .list (PageSpec.keys_of_address addressed).1
        (PageSpec.synthetic_of_embeds addressed embeds) found array depends ⟨rfl, rfl⟩ rfl rfl rfl
        (isHiddenIdentifier_of_listIdentifier identified) (ihInside hdep) (ihOthers hbundle)

/-- The pages are those of the names that have one. -/
theorem names_of_fillsPages {names : List String} {pages : List PageNode} {journal : Journal}
    (h : w.FillsPages bundle names pages journal) :
    pages.map (·.name) = names.filter fun name => (w.presentation.findPage? name).isSome := by
  induction h with
  | nil => rfl
  | missing missing others ih => simp [missing, ih]
  | page found addressed inside others ih => simp [found, ih]

end Walker

/-! ## compiled forms -/

namespace CompileRequest

/-- The pages of a compiled form are the pages of the page order that the
presentation has, and each mirrors the entries of its page over the
presented bundle, whichever key names it. -/
theorem form_mirrors_presentation {request : CompileRequest} {options : CompileOptions}
    {compiled : CompiledForm} (h : request.compile options = .ok compiled) :
    compiled.form.pages.map (·.name) = request.presentation.pageOrder.filter
      (fun name => (request.presentation.findPage? name).isSome) ∧
    ∀ page ∈ compiled.form.pages, page.kind = .page ∧
      ∃ spec, request.presentation.findPage? page.name = some spec ∧
        (Registry.ofList request.dependencies).Mirrors request.bundle spec.entries page.fields := by
  obtain ⟨hresolve, journal, hfills, -, -⟩ := compile_eq_ok h
  refine ⟨Walker.names_of_fillsPages hfills, fun page hpage => ?_⟩
  obtain ⟨-, hkind, spec, first, found, inside⟩ := hfills.of_mem hpage
  exact ⟨hkind, spec, found, Walker.mirrors_of_fills hresolve inside .base⟩

/-- Two pages are listed and one of them is there; it holds the list of an
array of references beside a synthetic page. -/
theorem form_mirrors_presentation_of_list :
    let request : CompileRequest :=
      { bundle := ⟨"Eform", [.bare "title" (.scalar (.primitive .text)),
          .bare "visits" (.array (.reference "Evisit"))], .empty⟩
        dependencies := [⟨"Evisit", [.bare "place" (.scalar (.primitive .text))], .empty⟩]
        presentation :=
          { bundleDigest := "Eform", digest := none, languages := ["eng"]
            pages := [⟨none, none, some "main", [.page ⟨none, none, some "head", [.field "title"]⟩,
              .page ⟨none, some "visits", none, [.field "place"]⟩]⟩]
            pageOrder := ["other", "main"], pageLabels := .empty, interactions := [] }
        conditionals := .empty
        readonly := [] }
    ∃ compiled, request.compile default = .ok compiled ∧
      compiled.form.pages.map (·.name) = ["main"] ∧
      ∀ page ∈ compiled.form.pages, page.kind = .page ∧
        ∃ spec, request.presentation.findPage? page.name = some spec ∧
          (Registry.ofList request.dependencies).Mirrors request.bundle spec.entries
            page.fields := by
  intro request
  have hok : (request.compile default).isOk = true := by decide +kernel
  obtain ⟨compiled, hcompile⟩ := exists_compile_eq_ok hok
  obtain ⟨hnames, hpages⟩ := form_mirrors_presentation hcompile
  exact ⟨compiled, hcompile, hnames.trans (by decide +kernel), hpages⟩

end CompileRequest

end FormCompiler
