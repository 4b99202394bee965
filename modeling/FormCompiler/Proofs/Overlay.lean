import FormCompiler.Proofs.IdentifierPaths
import FormCompiler.Proofs.LocaleRecords

/-!
# FormCompiler.Proofs.Overlay

Side tables laid over one another: what the upper tables hold hides what the
lower ones hold under the same key, in the dictionaries of each language, or
at the same path, in the tree of identifiers.  Whatever is entered into
tables could as well be entered into empty tables that are laid over them
afterwards (`SideTables.replay_eq_overlay`), since each line of a journal
writes without looking (`SideTables.enter_overlay`).
-/

namespace FormCompiler

/-! ## sorted entries -/

section Entries

variable {α β : Type}

/-- Sorted entries with further entries merged into them, one by one. -/
def mergeEntries (f : Option α → β → α) (lower : List (String × α)) (upper : List (String × β)) :
    List (String × α) :=
  upper.foldl (fun lower entry => alterEntry entry.1 (f · entry.2) lower) lower

theorem sorted_mergeEntries (f : Option α → β → α) {lower : List (String × α)}
    {upper : List (String × β)} (h : SortedEntries lower) :
    SortedEntries (mergeEntries f lower upper) := by
  induction upper generalizing lower with
  | nil => exact h
  | cons entry upper ih => exact ih (sorted_alterEntry _ _ h)

/-- Entries with different keys do not meet when they are merged. -/
theorem lookup_mergeEntries (f : Option α → β → α) {lower : List (String × α)}
    {upper : List (String × β)} (hlower : SortedEntries lower) (hupper : SortedEntries upper)
    (key : String) :
    (mergeEntries f lower upper).lookup key =
      ((upper.lookup key).map (f (lower.lookup key))).or (lower.lookup key) := by
  induction upper generalizing lower with
  | nil => rfl
  | cons entry upper ih =>
      obtain ⟨hbelow, hrest⟩ := List.pairwise_cons.mp hupper
      rw [mergeEntries, List.foldl_cons, ← mergeEntries, ih (sorted_alterEntry _ _ hlower) hrest,
        lookup_alterEntry _ _ _ hlower, lookup_cons_eq]
      by_cases hkey : key = entry.1
      · rw [if_pos hkey, if_pos hkey, hkey, lookup_eq_none_of_lt hbelow]
        rfl
      · rw [if_neg hkey, if_neg hkey]

end Entries

/-! ## dictionaries -/

namespace Dictionary

variable {α : Type}

/-- A dictionary laid over another one. -/
def overlay (lower upper : Dictionary α) : Dictionary α :=
  ⟨mergeEntries (fun _ value => value) lower.entries upper.entries,
    sorted_mergeEntries _ lower.sorted⟩

/-- The upper dictionary is looked up first. -/
theorem find?_overlay (lower upper : Dictionary α) (key : String) :
    (lower.overlay upper).find? key = (upper.find? key).or (lower.find? key) := by
  have hmerged := lookup_mergeEntries (fun (_ : Option α) value => value) lower.sorted
    upper.sorted key
  rwa [Option.map_id'] at hmerged

theorem insert_overlay (lower upper : Dictionary α) (key : String) (value : α) :
    (lower.overlay upper).insert key value = lower.overlay (upper.insert key value) := by
  refine ext_find? fun k => ?_
  simp only [find?_insert, find?_overlay]
  split <;> rfl

theorem insert?_overlay (lower upper : Dictionary α) (key : String) (value : Option α) :
    (lower.overlay upper).insert? key value = lower.overlay (upper.insert? key value) := by
  cases value with
  | none => rfl
  | some value => exact insert_overlay lower upper key value

end Dictionary

/-! ## dictionaries of languages -/

def Locale.overlay (lower upper : Locale) : Locale :=
  ⟨lower.attributes.overlay upper.attributes, lower.pages.overlay upper.pages,
    lower.bundle.overlay upper.bundle⟩

@[simp] theorem Locale.overlay_empty (locale : Locale) : locale.overlay empty = locale := rfl

/-- What a line of a journal does, it does to the upper dictionaries. -/
theorem JournalEntry.enterIn_overlay (lang : String) (entry : JournalEntry)
    (lower upper : Locale) :
    entry.enterIn lang (lower.overlay upper) = lower.overlay (entry.enterIn lang upper) := by
  cases entry with
  | attributeTexts path attr =>
      simp only [enterIn, Locale.recordAttribute, Locale.overlay, Dictionary.insert?_overlay]
  | title l key text =>
      simp only [enterIn]
      split
      · simp only [Locale.recordTitle, Locale.overlay, Dictionary.insert_overlay]
      · rfl
  | bundleTexts bundle =>
      simp only [enterIn, Locale.recordBundle, Locale.overlay, Dictionary.insert_overlay,
        Dictionary.insert?_overlay]
  | identifier | notice => rfl

namespace Locales

/-- The dictionaries of all languages laid over others. -/
def overlay (lower upper : Locales) : Locales :=
  ⟨⟨mergeEntries (fun below locale => (below.getD .empty).overlay locale)
      lower.byLanguage.entries upper.byLanguage.entries,
    sorted_mergeEntries _ lower.byLanguage.sorted⟩⟩

/-- The dictionaries of a language are laid over those below, and what the
upper locales lack is left as it was. -/
theorem find?_overlay (lower upper : Locales) (lang : String) :
    (lower.overlay upper).find? lang =
      ((upper.find? lang).map ((lower.find? lang).getD .empty).overlay).or (lower.find? lang) :=
  lookup_mergeEntries _ lower.byLanguage.sorted upper.byLanguage.sorted lang

end Locales

/-! ## trees of identifiers -/

namespace IdentifierTree

mutual

/-- A tree laid over another one, node by node. -/
def overlay (lower : IdentifierTree) : IdentifierTree → IdentifierTree
  | node identifier children =>
    node (identifier.or lower.identifier) (overlayChildren lower.children children)

def overlayChildren (lower : List (String × IdentifierTree)) :
    List (String × IdentifierTree) → List (String × IdentifierTree)
  | [] => lower
  | (name, tree) :: children =>
    overlayChildren (alterEntry name (fun child => (child.getD empty).overlay tree) lower) children

end

/-- The children of two nodes are merged by name. -/
theorem overlayChildren_eq (lower upper : List (String × IdentifierTree)) :
    overlayChildren lower upper =
      mergeEntries (fun child tree => (child.getD empty).overlay tree) lower upper := by
  induction upper generalizing lower with
  | nil => rw [overlayChildren, mergeEntries, List.foldl_nil]
  | cons child upper ih => rw [overlayChildren, ih, mergeEntries, mergeEntries, List.foldl_cons]

@[simp] theorem overlay_empty (tree : IdentifierTree) : tree.overlay empty = tree := by
  cases tree
  rw [empty, overlay, overlayChildren]
  rfl

/-- A child is laid over the one of the same name, or over nothing. -/
theorem lookup_overlayChildren {lower upper : List (String × IdentifierTree)}
    (hlower : SortedEntries lower) (hupper : SortedEntries upper) (name : String) :
    (overlayChildren lower upper).lookup name =
      ((upper.lookup name).map ((lower.lookup name).getD empty).overlay).or
        (lower.lookup name) := by
  rw [overlayChildren_eq]
  exact lookup_mergeEntries _ hlower hupper name

theorem sorted_overlayChildren {lower : List (String × IdentifierTree)}
    (h : SortedEntries lower) (upper : List (String × IdentifierTree)) :
    SortedEntries (overlayChildren lower upper) := by
  rw [overlayChildren_eq]
  exact sorted_mergeEntries _ h

/-- What is recorded in a tree is recorded in the upper one of its parts.
The induction is on the names; from where the upper tree ends it goes on
with an empty one. -/
theorem recordAt_overlay {names : List String} {ident : ListIdentifier}
    {lower upper : IdentifierTree} (hlower : lower.Sorted) (hupper : upper.Sorted) :
    recordAt names ident (lower.overlay upper) = lower.overlay (recordAt names ident upper) := by
  induction names generalizing lower upper with
  | nil =>
      obtain ⟨identifier, children⟩ := upper
      simp only [overlay, recordAt, Option.some_or]
  | cons name names ih =>
      obtain ⟨below, lower⟩ := lower
      obtain ⟨above, upper⟩ := upper
      obtain ⟨hlower, lowerInside⟩ := hlower
      obtain ⟨hupper, upperInside⟩ := hupper
      have hbelow := sorted_getD_lookup lowerInside
      simp only [overlay, recordAt, children, node.injEq, true_and]
      -- Both sides are sorted, so it is enough to compare them key by key.
      have hmerged := sorted_overlayChildren hlower upper
      have haltered := sorted_alterEntry name
        (fun child => recordAt names ident (child.getD empty)) hupper
      refine Dictionary.entries_ext (sorted_alterEntry _ _ hmerged)
        (sorted_overlayChildren hlower _) fun key => ?_
      rw [lookup_alterEntry _ _ _ hmerged, lookup_overlayChildren hlower haltered,
        lookup_alterEntry _ _ _ hupper, lookup_overlayChildren hlower hupper,
        lookup_overlayChildren hlower hupper]
      by_cases hkey : key = name
      · subst hkey
        rw [if_pos rfl, if_pos rfl, Option.map_some, Option.some_or, Option.some_inj]
        cases hchild : upper.lookup key with
        | none =>
            rw [Option.map_none, Option.none_or, Option.getD_none, ← ih (hbelow key) sorted_empty,
              overlay_empty]
        | some child =>
            have hin := upperInside _ (mem_of_lookup hchild)
            rw [Option.map_some, Option.some_or, Option.getD_some, Option.getD_some,
              ih (hbelow key) hin]
      · rw [if_neg hkey, if_neg hkey]

end IdentifierTree

/-! ## tables -/

namespace SideTables

/-- Tables laid over others. -/
def overlay (lower upper : SideTables) : SideTables :=
  ⟨lower.locales.overlay upper.locales, lower.identifiers.overlay upper.identifiers⟩

theorem ext_parts {tables tables' : SideTables} (hlocales : tables.locales = tables'.locales)
    (hidentifiers : tables.identifiers = tables'.identifiers) : tables = tables' := by
  cases tables
  cases tables'
  exact (SideTables.mk.injEq ..).mpr ⟨hlocales, hidentifiers⟩

variable {lower upper tables : SideTables}

/-- What is entered into tables is entered into the upper ones, if these
have dictionaries for all languages that the lower ones have. -/
theorem enter_overlay (hlower : lower.identifiers.Sorted) (hupper : upper.identifiers.Sorted)
    (hlanguages : ∀ lang, (lower.locales.find? lang).isSome → (upper.locales.find? lang).isSome)
    (entry : JournalEntry) :
    (lower.overlay upper).enter entry = lower.overlay (upper.enter entry) := by
  have hlocales : ((lower.overlay upper).enter entry).locales =
      lower.locales.overlay (upper.enter entry).locales := by
    refine Locales.ext_find? fun lang => ?_
    rw [find?_locales_enter, overlay, Locales.find?_overlay, Locales.find?_overlay,
      find?_locales_enter]
    cases habove : upper.locales.find? lang with
    | some locale =>
        simp only [Option.map_some, Option.some_or, entry.enterIn_overlay]
    | none =>
        have hbelow : lower.locales.find? lang = none := by
          cases hbelow : lower.locales.find? lang with
          | none => rfl
          | some locale => simpa [hbelow, habove] using hlanguages lang
        rw [hbelow]
        rfl
  have hidentifiers : ((lower.overlay upper).enter entry).identifiers =
      lower.identifiers.overlay (upper.enter entry).identifiers := by
    cases entry with
    | identifier path ident => exact IdentifierTree.recordAt_overlay hlower hupper
    | attributeTexts | title | bundleTexts | notice => rfl
  exact ext_parts hlocales hidentifiers

/-- A journal goes to the upper tables line by line. -/
theorem replay_overlay (hlower : lower.identifiers.Sorted) (hupper : upper.identifiers.Sorted)
    (hlanguages : ∀ lang, (lower.locales.find? lang).isSome → (upper.locales.find? lang).isSome)
    (journal : Journal) :
    (lower.overlay upper).replay journal = lower.overlay (upper.replay journal) := by
  induction journal generalizing upper with
  | nil => rfl
  | cons entry journal ih =>
      rw [replay, List.foldl_cons, enter_overlay hlower hupper hlanguages]
      refine ih (sorted_identifiers_enter hupper entry) fun lang hlang => ?_
      rw [find?_locales_enter, Option.isSome_map]
      exact hlanguages lang hlang

/-- Empty tables for the same languages hide nothing. -/
theorem overlay_forLanguages {languages : List String}
    (h : ∀ lang, (tables.locales.find? lang).isSome ↔ lang ∈ languages) :
    tables.overlay (forLanguages languages) = tables := by
  have hlocales : tables.locales.overlay (forLanguages languages).locales = tables.locales := by
    refine Locales.ext_find? fun lang => ?_
    rw [Locales.find?_overlay, find?_locales_forLanguages]
    by_cases hlang : lang ∈ languages
    · obtain ⟨locale, hlocale⟩ := Option.isSome_iff_exists.mp ((h lang).mpr hlang)
      simp [hlang, hlocale]
    · simp [hlang]
  exact ext_parts hlocales (IdentifierTree.overlay_empty _)

/-- A journal leaves behind what it leaves behind on empty tables, laid over
the tables that were there. -/
theorem replay_eq_overlay {languages : List String}
    (hlanguages : ∀ lang, (tables.locales.find? lang).isSome ↔ lang ∈ languages)
    (hsorted : tables.identifiers.Sorted) (journal : Journal) :
    tables.replay journal = tables.overlay ((forLanguages languages).replay journal) := by
  rw [← replay_overlay hsorted IdentifierTree.sorted_empty, overlay_forLanguages hlanguages]
  intro lang hlang
  rw [find?_locales_forLanguages, if_pos ((hlanguages lang).mp hlang)]
  rfl

end SideTables

end FormCompiler
