import FormCompiler.PageAddress
import FormCompiler.Walker.Field

/-!
# FormCompiler.Walker.Page

Pages and what stands on them.  The entries of a page become nodes one by
one:

1. a name becomes the field of the attribute of this name;
2. a synthetic page becomes a section over the same bundle;
3. any other page becomes a section over the bundle that its attribute
   refers to; if the attribute is an array, the section holds one list and
   the entries are the elements of the list.

Titles go into the journal, one for each requested language.
-/

namespace FormCompiler

namespace Walker

/-! ## titles -/

/-- What is written down about a top-level page in one language. -/
def pageTitleEntry (w : Walker) (page lang : String) : JournalEntry :=
  match w.presentation.pageLabels.find? lang with
  | none => .notice (.titlesMissing lang (w.presentation.digest.getD ""))
  | some labels =>
    match labels.find? page with
    | some title => .title lang page title
    | none => .notice (.titleMissing page lang)

/-- What is written down about a synthetic page in one language. -/
def syntheticTitleEntry (w : Walker) (page key lang : String) : JournalEntry :=
  match w.presentation.pageLabel? lang page with
  | some title => .title lang key title
  | none => .notice (.titleMissing page lang)

/-- What is written down about the page of an attribute in one language. -/
def referenceTitleEntry (attr : Attribute) (key lang : String) : JournalEntry :=
  match attr.labels.get? lang with
  | some label => .title lang key label
  | none => .notice (.labelMissing attr.name lang)

/-- Writes an entry for each requested language. -/
def writeTitles (w : Walker) (entry : String → JournalEntry) : Walk Unit :=
  ⟨.ok (), w.presentation.languages.map entry⟩

def warnOutdated (address : PageAddress) : Walk Unit :=
  Walk.notify (if address.isOutdated then [.outdatedAddress address.name] else [])

/-- Writes the titles of the page of an attribute. -/
def writeReferenceTitles (w : Walker) (attr : Attribute) (key : String) : Walk Unit := do
  Walk.notify (if attr.labels.isEmpty then [.unlabelled attr.name] else [])
  w.writeTitles (referenceTitleEntry attr key)

/-- The key of the title of a section. -/
def sectionTitleKey (name : String) : String := "page." ++ name ++ ".title"

/-! ## lists -/

/-- The request for an identifier of the items of the list at a path. -/
def identifierRequest? (w : Walker) (path : Path) : Option (Hints × Json) := do
  let hints ← (w.hints? path).filter fun hints => (WidgetProperties.ofHints hints).uses .list
  let id ← hints.id.filter Json.isTruthy
  return (hints, id)

/-- The format of identifiers that hints name. -/
def identifierFormat (path : Path) (hints : Hints) : Walk IdentifierFormat :=
  match (hints.idFormat.bind Json.asString?).bind IdentifierFormat.ofTag? with
  | some format => Walk.done format
  | none => Walk.fail (.identifierFormat path hints.idFormat)

/-- The hidden field for the identifiers of list items. -/
def identifierEntry (format : IdentifierFormat) (hints : Hints) : FieldEntry where
  name := IdentifierTree.identifierKey
  label := none
  isOptional := true
  isReadonly := false
  condition := none
  descriptor := .hidden format hints.onItemRemove

/-- The identifier of the items of the list at a path, written down, and
the hidden field for it. -/
def listIdentifier (w : Walker) (path : Path) : Walk (Option FieldEntry) :=
  match w.identifierRequest? path with
  | none => return none
  | some (hints, id) => do
    let format ← identifierFormat path hints
    Walk.write (.identifier path ⟨id, format⟩)
    return some (identifierEntry format hints)

/-- The list of an attribute at a path; `elements` walks over one item. -/
def listEntry (w : Walker) (attr : Attribute) (path : Path) (elements : Walk (List Node)) :
    Walk FieldEntry := do
  -- A format that is missing stops the walk before the elements are built.
  let identifier ← w.listIdentifier path
  let nodes ← elements
  return {
    name := attr.name
    label := some (path.key "label")
    isOptional := attr.isOptional
    isReadonly := w.isReadonly path
    condition := none
    descriptor :=
      .list (Cardinality.parse? attr.cardinality) (nodes ++ identifier.toList.map .field) }

/-! ## sections -/

/-- What stands in the section of a page at `path`; `within` walks over the
entries of the page, reading attributes from a bundle. -/
def sectionFields (w : Walker) (address : PageAddress) (bundle : Bundle) (path : Path)
    (within : Bundle → Walk (List Node)) : Walk (List Node) := do
  let key := sectionTitleKey address.name
  match address with
  | .synthetic name => do
    w.writeTitles (w.syntheticTitleEntry name key)
    within bundle
  | .outdated name | .reference name => do
    warnOutdated address
    let attr ← findAttribute bundle name
    w.writeReferenceTitles attr key
    if attr.type.reference?.isNone then Walk.fail (.notAReference attr.name attr.type)
    else
      let dep ← w.dependency bundle name
      if attr.type.isArray then
        let list ← w.listEntry attr path (within dep)
        return [.field list]
      else within dep

/-- The section of a page below `above`, from its address and a walk over
its entries at a path. -/
def sectionPage (w : Walker) (address : PageAddress) (bundle : Bundle) (above : Path)
    (within : Path → Bundle → Walk (List Node)) : Walk PageNode := do
  let path := above.child address.name
  let fields ← w.sectionFields address bundle path (within path)
  return ⟨.struct, address.name, sectionTitleKey address.name, w.condition? path, fields⟩

mutual

/-- The nodes of entries below `above`, reading attributes from `bundle`. -/
def walkEntries (w : Walker) : List PageEntry → Bundle → Path → Walk (List Node)
  | [], _, _ => return []
  | entry :: entries, bundle, above => do
    let node ← w.walkEntry entry bundle above
    let nodes ← w.walkEntries entries bundle above
    return node :: nodes

def walkEntry (w : Walker) : PageEntry → Bundle → Path → Walk Node
  | .field name, bundle, above => do
    let attr ← findAttribute bundle name
    let entry ← w.fieldEntry bundle above attr
    return .field entry
  | .page spec, bundle, above => do
    let page ← w.nestedPage spec bundle above
    return .page page

/-- The section of a nested page. -/
def nestedPage (w : Walker) : PageSpec → Bundle → Path → Walk PageNode
  | ⟨name, reference, synthetic, entries⟩, bundle, above => do
    let address ← Walk.ofExcept (PageSpec.address ⟨name, reference, synthetic, entries⟩)
    w.sectionPage address bundle above fun path bundle => w.walkEntries entries bundle path

end

/-! ## top-level pages -/

/-- A page of the form, under the name by which the page order lists it. -/
def topLevelPage (w : Walker) (page : String) (spec : PageSpec) (bundle : Bundle) :
    Walk PageNode := do
  let address ← Walk.ofExcept spec.address
  warnOutdated address
  w.writeTitles (w.pageTitleEntry page)
  let fields ← w.walkEntries spec.entries bundle .root
  return ⟨.page, page, page, none, fields⟩

/-- The pages of the page order; a page that is not there is skipped. -/
def orderedPages (w : Walker) (bundle : Bundle) : List String → Walk (List PageNode)
  | [] => return []
  | name :: names =>
    match w.presentation.findPage? name with
    | none => do
      Walk.notify [.pageMissing name]
      w.orderedPages bundle names
    | some spec => do
      let page ← w.topLevelPage name spec bundle
      let pages ← w.orderedPages bundle names
      return page :: pages

end Walker

end FormCompiler
