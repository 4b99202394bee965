import FormCompiler.Journal

/-!
# FormCompiler.Proofs.IdentifierPaths

The identifier tree as a map over paths.  In a tree whose nodes keep their
children in key order, recording an identifier changes what is found at its
path and nowhere else (`IdentifierTree.find?_record`), and a path finds all
that the tree holds (`IdentifierTree.mem_records`).  So after a journal
there stands at each path what the journal recorded there last
(`SideTables.find?_identifiers_replay`), and a journal that records at most
one identifier for a path can be read off the tree
(`SideTables.find?_identifiers_replay_iff`).
-/

namespace FormCompiler

/-- A property of all values is kept by altering one of them. -/
theorem forall_mem_alterEntry {α : Type} {P : α → Prop} {key : String} {f : Option α → α}
    {entries : List (String × α)} (h : ∀ entry ∈ entries, P entry.2) (hnone : P (f none))
    (hsome : ∀ value, P value → P (f (some value))) :
    ∀ entry ∈ alterEntry key f entries, P entry.2 := by
  induction entries with
  | nil => simpa [alterEntry] using hnone
  | cons head rest ih =>
      obtain ⟨hhead, hrest⟩ := List.forall_mem_cons.mp h
      unfold alterEntry
      split
      · exact List.forall_mem_cons.mpr ⟨hnone, h⟩
      · split
        · exact List.forall_mem_cons.mpr ⟨hsome _ hhead, hrest⟩
        · exact List.forall_mem_cons.mpr ⟨hhead, ih hrest⟩

namespace IdentifierTree

def find? (tree : IdentifierTree) (path : Path) : Option ListIdentifier :=
  (descend? path.segments tree).bind identifier

/-- Every node has its children in key order. -/
inductive Sorted : IdentifierTree → Prop
  | node {identifier} {children : List (String × IdentifierTree)}
      (sorted : SortedEntries children) (inside : ∀ child ∈ children, Sorted child.2) :
      Sorted (.node identifier children)

theorem sorted_empty : empty.Sorted := .node List.Pairwise.nil (by simp)

/-- Recording an identifier keeps the children of all nodes in key order. -/
theorem sorted_recordAt {names : List String} {ident : ListIdentifier} {tree : IdentifierTree}
    (h : tree.Sorted) : (recordAt names ident tree).Sorted := by
  induction names generalizing tree with
  | nil =>
      obtain ⟨sorted, inside⟩ := h
      exact .node sorted inside
  | cons name names ih =>
      obtain ⟨sorted, inside⟩ := h
      exact .node (sorted_alterEntry name _ sorted)
        (forall_mem_alterEntry inside (ih sorted_empty) fun child hchild => ih hchild)

/-- The child of a name is in order, as is the empty tree that stands for a
child that is not there. -/
theorem sorted_getD_lookup {children : List (String × IdentifierTree)}
    (h : ∀ child ∈ children, child.2.Sorted) (name : String) :
    ((children.lookup name).getD empty).Sorted := by
  cases hchild : children.lookup name with
  | none => exact sorted_empty
  | some child => exact h _ (mem_of_lookup hchild)

/-- Recording under a name changes what is below that name. -/
theorem descend?_recordAt_cons {found : Option ListIdentifier}
    {children : List (String × IdentifierTree)} (sorted : SortedEntries children)
    (name place : String) (names places : List String) (ident : ListIdentifier) :
    descend? (place :: places) (recordAt (name :: names) ident (node found children)) =
      if place = name then
        descend? places (recordAt names ident ((children.lookup name).getD empty))
      else descend? (place :: places) (node found children) := by
  rw [recordAt, descend?, lookup_alterEntry _ _ _ sorted, descend?]
  split <;> rfl

/-- The induction is on the names recorded under, while the names looked up
get shorter along with them. -/
theorem identifier_descend?_recordAt {names : List String} {ident : ListIdentifier}
    {tree : IdentifierTree} (h : tree.Sorted) (places : List String) :
    (descend? places (recordAt names ident tree)).bind identifier =
      if places = names then some ident else (descend? places tree).bind identifier := by
  induction names generalizing tree places with
  | nil =>
      obtain ⟨sorted, inside⟩ := h
      cases places with
      | nil => rfl
      | cons place places => rfl
  | cons name names ih =>
      obtain ⟨sorted, inside⟩ := h
      cases places with
      | nil => rfl
      | cons place places =>
          rw [descend?_recordAt_cons sorted]
          by_cases hname : place = name
          · subst hname
            rw [if_pos rfl, ih (sorted_getD_lookup inside place), descend?]
            cases List.lookup place _ with
            | none => cases places <;> simp [descend?, empty, identifier]
            | some child => simp
          · rw [if_neg hname, if_neg fun heq => hname (List.cons.inj heq).1]

@[simp] theorem find?_empty (path : Path) : empty.find? path = none := by
  obtain ⟨names⟩ := path
  cases names <;> rfl

/-- Recording an identifier changes what is found at its path, and nowhere
else. -/
theorem find?_record {tree : IdentifierTree} (h : tree.Sorted) (path place : Path)
    (ident : ListIdentifier) :
    (tree.record path ident).find? place =
      if place = path then some ident else tree.find? place := by
  obtain ⟨names⟩ := path
  obtain ⟨places⟩ := place
  simp only [find?, record, identifier_descend?_recordAt h, Path.mk.injEq]

/-! ## records -/

mutual

/-- All that the tree holds, by the names that lead there. -/
def recordsUnder : IdentifierTree → List (List String × ListIdentifier)
  | node identifier children => identifier.toList.map ([], ·) ++ childRecords children

def childRecords : List (String × IdentifierTree) → List (List String × ListIdentifier)
  | [] => []
  | (name, tree) :: children =>
    (recordsUnder tree).map (fun record => (name :: record.1, record.2)) ++ childRecords children

end

/-- All identifiers that the tree holds, with their paths. -/
def records (tree : IdentifierTree) : List (Path × ListIdentifier) :=
  tree.recordsUnder.map fun record => (⟨record.1⟩, record.2)

/-- The names of a record within children start with the name of a child. -/
theorem nil_notMem_childRecords {ident : ListIdentifier} :
    (children : List (String × IdentifierTree)) → ([], ident) ∉ childRecords children
  | [] => by simp [childRecords]
  | (name, tree) :: children => by
      simpa [childRecords] using nil_notMem_childRecords children

mutual

/-- In a sorted tree every record is found under its names. -/
theorem mem_recordsUnder {ident : ListIdentifier} : (tree : IdentifierTree) → tree.Sorted →
    (names : List String) →
    ((names, ident) ∈ tree.recordsUnder ↔ (descend? names tree).bind identifier = some ident)
  | node found children, .node sorted inside, [] => by
      simp [recordsUnder, nil_notMem_childRecords, descend?, identifier]
  | node found children, .node sorted inside, name :: names => by
      simp [recordsUnder, mem_childRecords children sorted inside, descend?]

/-- The records of the children are found by the name of the child and the path
below it. -/
theorem mem_childRecords {ident : ListIdentifier} : (children : List (String × IdentifierTree)) →
    SortedEntries children → (∀ child ∈ children, child.2.Sorted) →
    {name : String} → {names : List String} →
    ((name :: names, ident) ∈ childRecords children ↔
      ((children.lookup name).bind (descend? names)).bind identifier = some ident)
  | [], _, _, name, names => by simp [childRecords]
  | (key, tree) :: children, sorted, inside, name, names => by
      obtain ⟨below, sorted⟩ := List.pairwise_cons.mp sorted
      obtain ⟨hhead, inside⟩ := List.forall_mem_cons.mp inside
      rw [childRecords, List.mem_append, mem_childRecords children sorted inside, lookup_cons_eq]
      by_cases hname : name = key
      · subst hname
        rw [lookup_eq_none_of_lt below, if_pos rfl]
        simp [mem_recordsUnder tree hhead]
      · simp [hname, Ne.symm hname]

end

/-- The records of a tree are what its paths find. -/
theorem mem_records {tree : IdentifierTree} (h : tree.Sorted) {path : Path}
    {ident : ListIdentifier} : (path, ident) ∈ tree.records ↔ tree.find? path = some ident := by
  obtain ⟨names⟩ := path
  rw [find?, ← mem_recordsUnder tree h names]
  simp [records]

end IdentifierTree

/-- The identifier that a line of a journal records at a path. -/
def JournalEntry.identifierAt? (path : Path) : JournalEntry → Option ListIdentifier
  | .identifier place ident => if path = place then some ident else none
  | _ => none

/-- A line of the journal records an identifier for one path only. -/
theorem JournalEntry.identifierAt?_eq_some {path : Path} {ident : ListIdentifier}
    {entry : JournalEntry} :
    entry.identifierAt? path = some ident ↔ entry = .identifier path ident := by
  cases entry with
  | identifier place other => grind [identifierAt?]
  | attributeTexts | title | bundleTexts | notice => simp [identifierAt?]

namespace SideTables

variable {tables : SideTables}

theorem sorted_identifiers_enter (h : tables.identifiers.Sorted) (entry : JournalEntry) :
    (tables.enter entry).identifiers.Sorted := by
  cases entry with
  | identifier path ident => exact IdentifierTree.sorted_recordAt h
  | attributeTexts | title | bundleTexts | notice => exact h

/-- A line that records an identifier for a path decides what is found there.
-/
theorem find?_identifiers_enter (h : tables.identifiers.Sorted) (entry : JournalEntry)
    (path : Path) :
    (tables.enter entry).identifiers.find? path =
      (entry.identifierAt? path).or (tables.identifiers.find? path) := by
  cases entry with
  | identifier place ident =>
      rw [enter, IdentifierTree.find?_record h, JournalEntry.identifierAt?]
      split <;> rfl
  | attributeTexts | title | bundleTexts | notice => exact Option.none_or.symm

/-- At each path stands the identifier that was recorded there last. -/
theorem find?_identifiers_replay (h : tables.identifiers.Sorted) (journal : Journal)
    (path : Path) :
    (tables.replay journal).identifiers.find? path =
      (journal.reverse.findSome? (·.identifierAt? path)).or (tables.identifiers.find? path) := by
  induction journal generalizing tables with
  | nil => exact Option.none_or.symm
  | cons entry journal ih =>
      rw [replay, List.foldl_cons, ← replay, ih (sorted_identifiers_enter h entry),
        find?_identifiers_enter h, List.reverse_cons, List.findSome?_append, Option.or_assoc]
      simp

/-- Where a journal records one identifier for a path at most, the tree has
what the journal records. -/
theorem find?_identifiers_replay_iff (h : tables.identifiers.Sorted) {journal : Journal}
    {path : Path} {ident : ListIdentifier} (hnone : tables.identifiers.find? path = none)
    (hunique : ∀ first second, .identifier path first ∈ journal →
      .identifier path second ∈ journal → first = second) :
    (tables.replay journal).identifiers.find? path = some ident ↔
      .identifier path ident ∈ journal := by
  rw [find?_identifiers_replay h, hnone, Option.or_none]
  constructor
  · intro hlast
    obtain ⟨entry, hentry, hat⟩ := List.exists_of_findSome?_eq_some hlast
    obtain rfl := JournalEntry.identifierAt?_eq_some.mp hat
    exact List.mem_reverse.mp hentry
  · intro hmem
    cases hlast : journal.reverse.findSome? (·.identifierAt? path) with
    | none =>
        have hat := List.findSome?_eq_none_iff.mp hlast _ (List.mem_reverse.mpr hmem)
        rw [JournalEntry.identifierAt?_eq_some.mpr rfl] at hat
        contradiction
    | some other =>
        obtain ⟨entry, hentry, hat⟩ := List.exists_of_findSome?_eq_some hlast
        obtain rfl := JournalEntry.identifierAt?_eq_some.mp hat
        rw [hunique other ident (List.mem_reverse.mp hentry) hmem]

theorem sorted_identifiers_replay (h : tables.identifiers.Sorted) (journal : Journal) :
    (tables.replay journal).identifiers.Sorted := by
  induction journal generalizing tables with
  | nil => exact h
  | cons entry journal ih => exact ih (sorted_identifiers_enter h entry)

end SideTables

end FormCompiler
