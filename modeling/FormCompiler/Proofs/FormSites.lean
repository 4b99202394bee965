import FormCompiler.IdentifierTree
import FormCompiler.Proofs.FormEntries

/-!
# FormCompiler.Proofs.FormSites

What stands in a form: its sections and its entries, each with its path and
with its part in the form.  `Form.sites` goes down the same way as
`Form.located`, reading the form alone, and tells the parts apart:

* a section of a page, and a field or a list on a page or in a list;
* the answer and the further fields of a question, whose page is no section;
* the identifier of a list, which is the hidden field behind its elements.

Forgetting the parts leaves the entries of the form (`Form.located_eq`).
-/

namespace FormCompiler

/-! ## identifiers -/

def Descriptor.isHidden : Descriptor → Bool
  | .hidden _ _ => true
  | _ => false

/-- Is it a hidden field with the name of identifiers? -/
def FieldEntry.isIdentifier (entry : FieldEntry) : Bool :=
  entry.descriptor.isHidden && entry.name == IdentifierTree.identifierKey

/-- The identifier that a list ends with. -/
def Descriptor.identifier? : Descriptor → Option FieldEntry
  | .list _ elements =>
    match elements.getLast? with
    | some (.field entry) => if entry.isIdentifier then some entry else none
    | _ => none
  | _ => none

/-! ## sites -/

/-- What stands at a place in a form, by its part. -/
inductive Site where
  /-- A section, within a page or a list. -/
  | page (page : PageNode)
  /-- A field on a page or in a list. -/
  | field (entry : FieldEntry)
  | list (entry : FieldEntry)
  /-- The identifier at the end of a list. -/
  | identifier (entry : FieldEntry)
  /-- The answer of a question. -/
  | answer (entry : FieldEntry)
  /-- A further field of a question. -/
  | extra (entry : FieldEntry)

namespace Site

/-- The entry that stands there, unless it is a section. -/
def item? : Site → Option FieldEntry
  | page _ => none
  | field entry | list entry | identifier entry | answer entry | extra entry => some entry

def isList : Site → Bool
  | list _ => true
  | _ => false

def isAnswer : Site → Bool
  | answer _ => true
  | _ => false

theorem isList_iff {site : Site} : site.isList = true ↔ ∃ entry, site = list entry := by
  cases site <;> simp [isList]

theorem isAnswer_iff {site : Site} : site.isAnswer = true ↔ ∃ entry, site = answer entry := by
  cases site <;> simp [isAnswer]

/-- The part of an entry on a page. -/
def onPage (entry : FieldEntry) (_behind : List Node) : Site :=
  if entry.isList then list entry else field entry

/-- The part of an entry in a list, by what stands behind it. -/
def inList (entry : FieldEntry) (behind : List Node) : Site :=
  if behind.isEmpty && entry.isIdentifier then identifier entry else onPage entry behind

/-- The part of an entry on the page of the further fields of a question. -/
def inQuestion (entry : FieldEntry) (_behind : List Node) : Site := extra entry

end Site

mutual

/-- What stands within the descriptor of a field at a path. -/
def Descriptor.sites (path : Path) : Descriptor → List (Path × Site)
  | .array _ element => element.sites path
  | .list _ elements => Node.sites Site.inList path elements
  | .question (some answer) (some extras) =>
    answer.sites (.answer answer) path ++ extras.sites Site.inQuestion path
  | .question (some answer) none => answer.sites (.answer answer) path
  | .question none (some extras) => extras.sites Site.inQuestion path
  | _ => []

/-- An entry, in the part given for it, and what stands within it. -/
def FieldEntry.sites (site : Site) (above : Path) : FieldEntry → List (Path × Site)
  | ⟨name, _, _, _, _, descriptor⟩ =>
    let path := if descriptor.isList then above else above.child name
    (path, site) :: descriptor.sites path

def PageNode.sites (part : FieldEntry → List Node → Site) (path : Path) :
    PageNode → List (Path × Site)
  | ⟨_, _, _, _, fields⟩ => Node.sites part path fields

/-- What stands below a path, the entries among the nodes in the parts that
`part` gives them. -/
def Node.sites (part : FieldEntry → List Node → Site) (above : Path) :
    List Node → List (Path × Site)
  | [] => []
  | .field entry :: nodes => entry.sites (part entry nodes) above ++ Node.sites part above nodes
  | .page page :: nodes =>
    (above.child page.name, .page page) ::
      (page.sites Site.onPage (above.child page.name) ++ Node.sites part above nodes)

end

/-- What stands in a form; the names of its top-level pages do not count. -/
def Form.sites (form : Form) : List (Path × Site) :=
  form.pages.flatMap fun page => Node.sites Site.onPage .root page.fields

/-- An entry stands at its path, and what its descriptor holds stands below it.
-/
theorem FieldEntry.sites_eq (entry : FieldEntry) (site : Site) (above : Path) :
    entry.sites site above =
      (entry.placedAt above, site) :: entry.descriptor.sites (entry.placedAt above) := by
  cases entry
  rw [FieldEntry.sites]
  rfl

/-- A page stands nowhere itself, only its fields do. -/
theorem PageNode.sites_eq (page : PageNode) (part : FieldEntry → List Node → Site)
    (path : Path) : page.sites part path = Node.sites part path page.fields := by
  cases page
  rw [PageNode.sites]

/-! ## the entries among the sites -/

def Site.entries (sites : List (Path × Site)) : List (Path × FieldEntry) :=
  sites.filterMap fun site => site.2.item?.map (site.1, ·)

/-- The entries among sites are all but the sections. -/
theorem Site.mem_entries {sites : List (Path × Site)} {path : Path} {entry : FieldEntry} :
    (path, entry) ∈ Site.entries sites ↔
      ∃ site, (path, site) ∈ sites ∧ site.item? = some entry := by
  simp only [entries, List.mem_filterMap, Option.map_eq_some_iff, Prod.exists, Prod.mk.injEq]
  constructor
  · rintro ⟨_, site, hsite, _, hentry, rfl, rfl⟩
    exact ⟨site, hsite, hentry⟩
  · rintro ⟨site, hsite, hentry⟩
    exact ⟨path, site, hsite, entry, hentry, rfl, rfl⟩

@[simp] theorem Site.entries_append (first second : List (Path × Site)) :
    Site.entries (first ++ second) = Site.entries first ++ Site.entries second :=
  List.filterMap_append

/-- Whatever part an entry plays on a page, it stands there. -/
@[simp] theorem Site.item?_onPage (entry : FieldEntry) (behind : List Node) :
    (Site.onPage entry behind).item? = some entry := by
  unfold onPage
  split <;> rfl

/-- Whatever part an entry plays in a list, it stands there. -/
@[simp] theorem Site.item?_inList (entry : FieldEntry) (behind : List Node) :
    (Site.inList entry behind).item? = some entry := by
  unfold inList
  split
  · rfl
  · exact item?_onPage entry behind

mutual

/-- Down to the entries of a descriptor, both traversals meet the same entries
at the same paths. -/
theorem Descriptor.located_eq_entries (path : Path) : (descriptor : Descriptor) →
    descriptor.located path = Site.entries (descriptor.sites path)
  | .array _ element => by
      rw [Descriptor.located, Descriptor.sites, element.located_eq_entries]
  | .list _ elements => by
      rw [Descriptor.located, Descriptor.sites]
      exact Node.located_eq_entries Site.inList Site.item?_inList path elements
  | .question (some answer) (some extras) => by
      rw [Descriptor.located, Descriptor.sites, Site.entries_append,
        answer.located_eq_entries (.answer answer) path rfl,
        extras.located_eq_entries Site.inQuestion fun _ _ => rfl]
  | .question (some answer) none => by
      rw [Descriptor.located, Descriptor.sites, answer.located_eq_entries (.answer answer) path rfl]
  | .question none (some extras) => by
      rw [Descriptor.located, Descriptor.sites,
        extras.located_eq_entries Site.inQuestion fun _ _ => rfl]
  | .question none none | .choice _ _ | .multifile _ | .text _ _ | .codeScanner _ | .file
  | .signature _ | .number _ | .checkbox | .date _ _ _ | .hidden _ _ => by
      simp [Descriptor.located, Descriptor.sites, Site.entries]

/-- An entry and what it holds are met alike, whatever part it plays. -/
theorem FieldEntry.located_eq_entries (site : Site) (above : Path) : (entry : FieldEntry) →
    site.item? = some entry → entry.located above = Site.entries (entry.sites site above)
  | ⟨_, _, _, _, _, descriptor⟩, h => by
      rw [FieldEntry.located, FieldEntry.sites, descriptor.located_eq_entries]
      simp [Site.entries, h]

theorem PageNode.located_eq_entries (part : FieldEntry → List Node → Site)
    (hpart : ∀ entry behind, (part entry behind).item? = some entry) (path : Path) :
    (page : PageNode) → page.located path = Site.entries (page.sites part path)
  | ⟨_, _, _, _, fields⟩ => by
      rw [PageNode.located, PageNode.sites, Node.located_eq_entries part hpart path fields]

/-- The nodes of a page or list are met alike, however their parts are told. -/
theorem Node.located_eq_entries (part : FieldEntry → List Node → Site)
    (hpart : ∀ entry behind, (part entry behind).item? = some entry) (above : Path) :
    (nodes : List Node) → Node.located above nodes = Site.entries (Node.sites part above nodes)
  | [] => by rw [Node.located, Node.sites]; rfl
  | .field entry :: nodes => by
      rw [Node.located, Node.sites, Site.entries_append,
        entry.located_eq_entries (part entry nodes) above (hpart entry nodes),
        Node.located_eq_entries part hpart above nodes]
  | .page page :: nodes => by
      rw [Node.located, Node.sites, page.located_eq_entries Site.onPage Site.item?_onPage,
        Node.located_eq_entries part hpart above nodes, ← Site.entries_append]
      rfl

end

/-- The entries of a form are those that stand in it in some part. -/
theorem Form.located_eq (form : Form) : form.located = Site.entries form.sites := by
  simp only [Form.located, Form.sites, Site.entries, List.filterMap_flatMap]
  exact congrArg (form.pages.flatMap ·) (funext fun page =>
    Node.located_eq_entries Site.onPage Site.item?_onPage .root page.fields)

end FormCompiler
