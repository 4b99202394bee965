import FormCompiler.Proofs.WrittenIdentifiers

/-!
# FormCompiler.Proofs.RecordedPaths

The tree of identifiers as a map over paths.  Two trees in key order with the
same nodes and the same identifiers are the same tree
(`IdentifierTree.Sorted.ext_descend?`), so a tree that was recorded is told
by its calls: by the paths they go along, and by the last call for each path
(`IdentifierTree.recorded_tree_indexed`).  How calls for different paths
follow each other does not matter (`IdentifierTree.ofRecords_eq_of_reorders`).
-/

namespace FormCompiler

namespace IdentifierTree

variable {tree other inner : IdentifierTree} {names : List String} {path : Path}
  {ident : ListIdentifier} {calls reordered : List (Path × ListIdentifier)}

/-! ## trees told by their nodes -/

/-- Going down along names is going down along the first of them, and from
there along the others. -/
theorem descend?_append (upper lower : List String) (tree : IdentifierTree) :
    descend? (upper ++ lower) tree = (descend? upper tree).bind (descend? lower) := by
  induction upper generalizing tree with
  | nil => rfl
  | cons name upper ih =>
      obtain ⟨found, children⟩ := tree
      rw [List.cons_append, descend?, descend?, Option.bind_assoc]
      exact congrArg _ (funext ih)

/-- Trees in key order with the same nodes and the same identifiers are the
same.  The induction is on the first tree; the children of a name have the
same nodes below that name. -/
theorem Sorted.ext_descend? (h : tree.Sorted) (h' : other.Sorted)
    (hnodes : ∀ names, (descend? names tree).map identifier =
      (descend? names other).map identifier) : tree = other := by
  induction h generalizing other with
  | @node found children sorted inside ih =>
      obtain @⟨found', children', sorted', inside'⟩ := h'
      obtain rfl : found = found' := Option.some.inj (hnodes [])
      have hbelow : ∀ name names,
          ((children.lookup name).bind (descend? names)).map identifier =
            ((children'.lookup name).bind (descend? names)).map identifier :=
        fun name names => hnodes (name :: names)
      -- Entries in key order are told by their lookups, child by child.
      refine congrArg (IdentifierTree.node found)
        (Dictionary.entries_ext sorted sorted' fun name => ?_)
      cases hchild : children.lookup name with
      | none =>
          cases hchild' : children'.lookup name with
          | none => rfl
          | some child' =>
              have := hbelow name []
              rw [hchild, hchild'] at this
              contradiction
      | some child =>
          cases hchild' : children'.lookup name with
          | none =>
              have := hbelow name []
              rw [hchild, hchild'] at this
              contradiction
          | some child' =>
              refine congrArg some (ih _ (mem_of_lookup hchild)
                (inside' _ (mem_of_lookup hchild')) fun names => ?_)
              have := hbelow name names
              rwa [hchild, hchild', Option.bind_some, Option.bind_some] at this

/-! ## the last call for a path -/

/-- The identifier is that of the last call for the path. -/
def LastRecorded (calls : List (Path × ListIdentifier)) (path : Path) (ident : ListIdentifier) :
    Prop :=
  ∃ before after, calls = before ++ (path, ident) :: after ∧ ∀ call ∈ after, call.1 ≠ path

/-- A path finds what was recorded for it last. -/
theorem find?_ofRecords_eq_some_iff :
    (ofRecords calls).find? path = some ident ↔ LastRecorded calls path ident := by
  rw [find?_ofRecords, List.lookup_eq_some_iff]
  constructor
  · rintro ⟨later, earlier, heq, hlater⟩
    refine ⟨earlier.reverse, later.reverse, ?_, fun call hcall => ?_⟩
    · rw [← List.reverse_reverse calls, heq]
      simp
    · have := hlater call (List.mem_reverse.mp hcall)
      exact fun hpath => by simp [hpath] at this
  · rintro ⟨before, after, rfl, hafter⟩
    refine ⟨after.reverse, before.reverse, by simp, fun call hcall => ?_⟩
    have := hafter call (List.mem_reverse.mp hcall)
    simpa using this.symm

/-- A path finds nothing if nothing was recorded for it. -/
theorem find?_ofRecords_eq_none_iff :
    (ofRecords calls).find? path = none ↔ ∀ call ∈ calls, call.1 ≠ path := by
  rw [find?_ofRecords, List.lookup_eq_none_iff]
  constructor
  · intro h call hcall heq
    simpa [heq] using h call (List.mem_reverse.mpr hcall)
  · intro h call hcall
    simpa using (h call (List.mem_reverse.mp hcall)).symm

/-- There is a node at the root, and wherever a call went along. -/
theorem exists_descend?_ofRecords_iff :
    (∃ inner, descend? path.segments (ofRecords calls) = some inner) ↔
      path = .root ∨ ∃ call ∈ calls, path.segments <+: call.1.segments := by
  rw [← Option.isSome_iff_exists, isSome_descend?_ofRecords]
  obtain ⟨names⟩ := path
  simp [Path.root]

/-! ## calls in another order -/

/-- For each path the same calls are made in the same order. -/
def Reorders (reordered calls : List (Path × ListIdentifier)) : Prop :=
  ∀ path, reordered.filter (·.1 = path) = calls.filter (·.1 = path)

/-- Two calls in a row for different paths may change places. -/
theorem reorders_swap {first second : Path × ListIdentifier} (h : first.1 ≠ second.1)
    (before after : List (Path × ListIdentifier)) :
    Reorders (before ++ second :: first :: after) (before ++ first :: second :: after) := by
  intro path
  have hpair : (second :: first :: after).filter (·.1 = path) =
      (first :: second :: after).filter (·.1 = path) := by
    by_cases hfirst : first.1 = path
    · have hsecond : second.1 ≠ path := fun hsecond => h (hfirst.trans hsecond.symm)
      simp [hfirst, hsecond]
    · simp [List.filter_cons, hfirst]
  rw [List.filter_append, List.filter_append, hpair]

/-- A lookup finds the first entry of a key, so it only depends on the entries
of that key. -/
theorem lookup_eq_head?_filter {α β : Type} [DecidableEq α] (key : α) (entries : List (α × β)) :
    entries.lookup key = (entries.filter (·.1 = key)).head?.map (·.2) := by
  induction entries with
  | nil => rfl
  | cons entry entries ih =>
      rw [List.lookup_cons, List.filter_cons]
      by_cases hkey : key = entry.1
      · simp [hkey]
      · rw [beq_eq_false_iff_ne.mpr hkey, if_neg (by simpa using Ne.symm hkey), ih]

theorem Reorders.mem_iff (h : Reorders reordered calls) {call : Path × ListIdentifier} :
    call ∈ reordered ↔ call ∈ calls := by
  have hmem : ∀ others : List (Path × ListIdentifier),
      call ∈ others ↔ call ∈ others.filter (·.1 = call.1) := by simp
  rw [hmem reordered, hmem calls, h]

/-- Reordering calls for different paths does not change what a path finds. -/
theorem Reorders.find?_eq (h : Reorders reordered calls) (path : Path) :
    (ofRecords reordered).find? path = (ofRecords calls).find? path := by
  rw [find?_ofRecords, find?_ofRecords, lookup_eq_head?_filter, lookup_eq_head?_filter,
    List.filter_reverse, List.filter_reverse, h]

/-- How calls for different paths follow each other does not show. -/
theorem ofRecords_eq_of_reorders (h : Reorders reordered calls) :
    ofRecords reordered = ofRecords calls := by
  refine (sorted_ofRecords reordered).ext_descend? (sorted_ofRecords calls) fun names => ?_
  have hnodes : (descend? names (ofRecords reordered)).isSome =
      (descend? names (ofRecords calls)).isSome := by
    rw [Bool.eq_iff_iff, isSome_descend?_ofRecords, isSome_descend?_ofRecords]
    simp only [h.mem_iff]
  have hfind := h.find?_eq ⟨names⟩
  unfold find? at hfind
  cases hfirst : descend? names (ofRecords reordered) with
  | none =>
      rw [hfirst, Option.isSome_none, eq_comm, Option.isSome_eq_false_iff,
        Option.isNone_iff_eq_none] at hnodes
      rw [hnodes]
  | some inner =>
      rw [hfirst, Option.isSome_some, eq_comm, Option.isSome_iff_exists] at hnodes
      obtain ⟨inner', hsecond⟩ := hnodes
      rw [hfirst, hsecond] at hfind
      rw [hsecond]
      exact congrArg some hfind

/-! ## leaves -/

/-- Where no call went further, one ended. -/
theorem identifier_of_leaf (hne : names ≠ [])
    (hinner : descend? names (ofRecords calls) = some inner) (hleaf : inner.children = []) :
    ∃ ident, inner.identifier = some ident := by
  obtain hroot | ⟨call, hcall, rest, hrest⟩ :=
    (isSome_descend?_ofRecords calls names).mp (Option.isSome_iff_exists.mpr ⟨inner, hinner⟩)
  · exact absurd hroot hne
  · cases rest with
    | nil =>
        have hsome : (ofRecords calls).find? ⟨names⟩ ≠ none := by
          rw [ne_eq, find?_ofRecords_eq_none_iff]
          intro hnone
          rw [List.append_nil] at hrest
          exact hnone call hcall (congrArg Path.mk hrest.symm)
        obtain ⟨ident, hident⟩ := Option.ne_none_iff_exists'.mp hsome
        rw [find?, hinner, Option.bind_some] at hident
        exact ⟨ident, hident⟩
    | cons name rest =>
        -- the call went on to a child, but there is none
        have hchild := (isSome_descend?_ofRecords calls (names ++ [name])).mpr
          (.inr ⟨call, hcall, rest, by rw [← hrest]; simp⟩)
        obtain ⟨found, children⟩ := inner
        obtain rfl : children = [] := hleaf
        rw [descend?_append, hinner] at hchild
        exact absurd hchild Bool.false_ne_true

/-! ## the tree as a map -/

/-- **The tree of identifiers is a map over paths.**  Whatever calls are made
on an empty tree, there are nodes at the root and along the paths of the
calls and nowhere else, and a node has the identifier of the last call for
its path, or none if there was no such call.  So calls for different paths
may be made in any order, a call leaves the identifiers of other paths as
they are, and a leaf other than the root has an identifier. -/
theorem recorded_tree_indexed (calls : List (Path × ListIdentifier)) :
    (∀ path : Path,
      ((∃ inner, descend? path.segments (ofRecords calls) = some inner) ↔
        path = .root ∨ ∃ call ∈ calls, path.segments <+: call.1.segments) ∧
      ∀ inner, descend? path.segments (ofRecords calls) = some inner →
        (∀ ident, inner.identifier = some ident ↔ LastRecorded calls path ident) ∧
        (inner.identifier = none ↔ ∀ call ∈ calls, call.1 ≠ path)) ∧
    (∀ reordered, Reorders reordered calls → ofRecords reordered = ofRecords calls) ∧
    (∀ path ident place, place ≠ path →
      ((ofRecords calls).record path ident).find? place = (ofRecords calls).find? place) ∧
    ∀ (path : Path) inner, path ≠ .root → descend? path.segments (ofRecords calls) = some inner →
      inner.children = [] → ∃ ident, inner.identifier = some ident := by
  refine ⟨fun path => ⟨exists_descend?_ofRecords_iff, fun inner hinner => ?_⟩,
    fun reordered => ofRecords_eq_of_reorders, fun path ident place hne => ?_,
    fun path inner hne hinner hleaf => ?_⟩
  · have hfind : (ofRecords calls).find? path = inner.identifier := by
      rw [find?, hinner, Option.bind_some]
    rw [← hfind]
    exact ⟨fun ident => find?_ofRecords_eq_some_iff, find?_ofRecords_eq_none_iff⟩
  · rw [find?_record (sorted_ofRecords calls), if_neg hne]
  · refine identifier_of_leaf (fun hnil => hne ?_) hinner hleaf
    exact congrArg Path.mk hnil

/-- A list that is recorded twice, and in between one further down, below a
name without a list. -/
theorem recorded_tree_indexed_of_nested :
    let outer : Path := ⟨["contacts"]⟩
    let within : Path := ⟨["contacts", "home", "phones"]⟩
    let first : ListIdentifier := ⟨.boolean true, .uuid⟩
    let second : ListIdentifier := ⟨.boolean true, .bigint⟩
    let calls := [(outer, first), (within, first), (outer, second)]
    let reordered := [(within, first), (outer, first), (outer, second)]
    Reorders reordered calls ∧ ofRecords reordered = ofRecords calls ∧
    ((ofRecords calls).record within second).find? outer = some second ∧
    ∃ node home leaf, descend? ["contacts"] (ofRecords calls) = some node ∧
      node.identifier = some second ∧
      descend? ["contacts", "home"] (ofRecords calls) = some home ∧ home.identifier = none ∧
      descend? ["contacts", "home", "phones"] (ofRecords calls) = some leaf ∧
      leaf.children = [] ∧ ∃ ident, leaf.identifier = some ident := by
  intro outer within first second calls reordered
  have hne : (outer, first).1 ≠ (within, first).1 := by decide
  have hreorders : Reorders reordered calls := reorders_swap hne [] [(outer, second)]
  obtain ⟨hnodes, horder, hother, hleaves⟩ := recorded_tree_indexed calls
  have hlast : LastRecorded calls outer second :=
    ⟨[(outer, first), (within, first)], [], rfl, fun _ h => absurd h List.not_mem_nil⟩
  have hwithin : (within, first) ∈ calls := List.mem_cons_of_mem _ List.mem_cons_self
  obtain ⟨node, hnode⟩ := (hnodes outer).1.mpr (.inr ⟨_, hwithin, ["home", "phones"], rfl⟩)
  obtain ⟨home, hhome⟩ :=
    (hnodes ⟨["contacts", "home"]⟩).1.mpr (.inr ⟨_, hwithin, ["phones"], rfl⟩)
  have hnone : home.identifier = none :=
    ((hnodes ⟨["contacts", "home"]⟩).2 home hhome).2.mpr
      (by simp [calls, outer, within])
  obtain ⟨leaf, hleaf, hchildren⟩ : ∃ leaf, descend? within.segments (ofRecords calls) = some leaf ∧
      leaf.children = [] := by
    with_unfolding_all exact ⟨_, rfl, rfl⟩
  refine ⟨hreorders, horder _ hreorders, ?_, node, home, leaf, hnode,
    (((hnodes outer).2 node hnode).1 second).mpr hlast, hhome, hnone, hleaf, hchildren,
    hleaves within leaf (by decide) hleaf hchildren⟩
  rw [hother within second outer (by decide), find?, hnode, Option.bind_some]
  exact (((hnodes outer).2 node hnode).1 second).mpr hlast

end IdentifierTree

end FormCompiler
