import FormCompiler.Proofs.DistinctKeys
import FormCompiler.Proofs.IdentifierPaths
import Mathlib.Data.List.Induction

/-!
# FormCompiler.Proofs.WrittenIdentifiers

What the object of an identifier tree tells of the records in it.  A node is
written with its children under their names and its own record under the key
`_id`, so a child of that name and the record get in each other's way.

`IdentifierTree.written_iff` says when nothing is lost: no object has a key
twice, and at every recorded path the last record is found under the names
and the key `_id`, exactly if no recorded path goes on from another one with
the name `_id`.  A reader that keeps the last value of a repeated key still
finds each record above which this does not happen.
-/

namespace FormCompiler

/-- A path lies below a name if it goes on from there by that name. -/
theorem Path.isWithin_child_iff {path upper : Path} {name : String} :
    path.isWithin (upper.child name) = true ↔ upper.segments ++ [name] <+: path.segments := by
  simp [isWithin_iff]

/-! ## nodes -/

def ListIdentifier.toJson (ident : ListIdentifier) : Json :=
  .object [("id", ident.id), ("format", .string ident.format.tag)]

theorem ListIdentifier.distinctKeys_toJson {ident : ListIdentifier} (h : ident.id.DistinctKeys) :
    ident.toJson.DistinctKeys :=
  .object (by simp) (List.forall_mem_cons.mpr ⟨h, List.forall_mem_singleton.mpr .string⟩)

namespace IdentifierTree

variable {found : Option ListIdentifier} {children : List (String × IdentifierTree)}
  {tree : IdentifierTree}

theorem childrenToJson_eq (children : List (String × IdentifierTree)) :
    childrenToJson children = children.map fun child => (child.1, child.2.toJson) := by
  induction children with
  | nil => rfl
  | cons child children ih => rw [childrenToJson, ih, List.map_cons]

theorem lookup_childrenToJson (key : String) (children : List (String × IdentifierTree)) :
    (childrenToJson children).lookup key = (children.lookup key).map toJson := by
  induction children with
  | nil => rfl
  | cons child children ih =>
      rw [childrenToJson, lookup_cons_eq, lookup_cons_eq, ih]
      split <;> rfl

theorem keys_childrenToJson (children : List (String × IdentifierTree)) :
    (childrenToJson children).map (·.1) = children.map (·.1) := by
  rw [childrenToJson_eq, List.map_map]
  rfl

/-- A reader finds the record of a node before a child of the same name. -/
theorem get?_mergeKeys_toJson (sorted : SortedEntries children) (key : String) :
    (node found children).toJson.mergeKeys.get? key =
      (((identifierMember found).lookup key).or ((children.lookup key).map toJson)).map
        Json.mergeKeys := by
  have hnodup : ((childrenToJson children).map (·.1)).Nodup := by
    rw [keys_childrenToJson]
    exact nodup_keys_of_sorted sorted
  have hmember : (identifierMember found).reverse = identifierMember found := by
    cases found <;> rfl
  rw [toJson, Json.get?_mergeKeys_object, List.reverse_append, hmember, lookup_append,
    lookup_reverse hnodup, lookup_childrenToJson]

/-! ## separate names -/

/-- No node has a record and a child under the key of the record. -/
def Separate (tree : IdentifierTree) : Prop :=
  ∀ names ident, (descend? names tree).bind identifier = some ident →
    descend? (names ++ [identifierKey]) tree = none

/-- In sorted children, each is found under its name. -/
theorem descend?_of_mem (sorted : SortedEntries children) {child : String × IdentifierTree}
    (hchild : child ∈ children) (names : List String) :
    descend? (child.1 :: names) (node found children) = descend? names child.2 := by
  rw [descend?, lookup_of_mem_of_nodup (nodup_keys_of_sorted sorted) hchild, Option.bind_some]

/-- A node with a record keeps apart if no child has its key, and if all
children keep apart. -/
theorem separate_node_iff (sorted : SortedEntries children) :
    (node found children).Separate ↔
      (found = none ∨ children.lookup identifierKey = none) ∧
        ∀ child ∈ children, child.2.Separate := by
  constructor
  · refine fun h => ⟨?_, fun child hchild names ident hident => ?_⟩
    · cases found with
      | none => exact .inl rfl
      | some ident => simpa [descend?] using h [] ident rfl
    · have := h (child.1 :: names) ident (by rwa [descend?_of_mem sorted hchild])
      rwa [List.cons_append, descend?_of_mem sorted hchild] at this
  · rintro ⟨hroot, hinside⟩ names ident hident
    cases names with
    | nil =>
        obtain rfl : found = some ident := hident
        simpa [descend?] using hroot
    | cons name names =>
        rw [descend?] at hident
        rw [List.cons_append, descend?]
        cases hchild : children.lookup name with
        | none => rfl
        | some child =>
            rw [hchild] at hident
            exact hinside _ (mem_of_lookup hchild) names ident hident

/-- The object of a node repeats a key only if a child has that of the record.
-/
theorem nodup_keys_toJson_iff (sorted : SortedEntries children) :
    ((childrenToJson children ++ identifierMember found).map (·.1)).Nodup ↔
      found = none ∨ children.lookup identifierKey = none := by
  have hnodup := nodup_keys_of_sorted sorted
  rw [List.map_append, keys_childrenToJson]
  cases found with
  | none => simpa [identifierMember] using hnodup
  | some ident =>
      have hunit : ((identifierMember (some ident)).map (·.1)) = [identifierKey] := rfl
      rw [hunit, List.nodup_append, lookup_eq_none_iff_notMem,
        or_iff_right (Option.some_ne_none ident)]
      generalize children.map (·.1) = keys at hnodup ⊢
      simp [hnodup, List.forall_mem_ne']

/-- A tree is written without a repeated key exactly if it keeps its records
apart. -/
theorem distinctKeys_toJson_iff (h : tree.Sorted)
    (hids : ∀ names ident, (descend? names tree).bind identifier = some ident →
      ident.id.DistinctKeys) :
    tree.toJson.DistinctKeys ↔ tree.Separate := by
  induction h with
  | @node found children sorted inside ih =>
      have hmember : ∀ field ∈ identifierMember found, field.2.DistinctKeys := by
        cases found with
        | none => simp [identifierMember]
        | some ident =>
            exact List.forall_mem_singleton.mpr
              (ListIdentifier.distinctKeys_toJson (hids [] ident rfl))
      have hchildren : (∀ field ∈ childrenToJson children, field.2.DistinctKeys) ↔
          ∀ child ∈ children, child.2.Separate := by
        rw [childrenToJson_eq, List.forall_mem_map]
        refine forall₂_congr fun child hchild => ih child hchild fun names ident hident => ?_
        exact hids (child.1 :: names) ident (by rwa [descend?_of_mem sorted hchild])
      rw [toJson, Json.distinctKeys_object_iff, nodup_keys_toJson_iff sorted,
        List.forall_mem_append, hchildren, separate_node_iff sorted, and_iff_left hmember]

/-! ## reading records back -/

/-- Names lead to the written node, unless the record of a node above is
read in place of a child. -/
theorem follow?_mergeKeys_toJson (h : tree.Sorted) {names : List String} {inner : IdentifierTree}
    (hinner : descend? names tree = some inner)
    (hfree : ∀ upper lower, names = upper ++ identifierKey :: lower →
      (descend? upper tree).bind identifier = none) :
    tree.toJson.mergeKeys.follow? names = some inner.toJson.mergeKeys := by
  induction names generalizing tree with
  | nil =>
      obtain rfl := Option.some.inj hinner
      rfl
  | cons name names ih =>
      obtain ⟨sorted, inside⟩ := h
      rename_i found children
      rw [descend?] at hinner
      obtain ⟨child, hchild, hinner⟩ := Option.bind_eq_some_iff.mp hinner
      have hmem := mem_of_lookup hchild
      have hmember : (identifierMember found).lookup name = none := by
        cases found with
        | none => rfl
        | some ident =>
            rw [identifierMember, lookup_cons_eq, if_neg, List.lookup_nil]
            rintro rfl
            exact Option.some_ne_none ident (hfree [] names rfl)
      rw [Json.follow?, get?_mergeKeys_toJson sorted, hmember, hchild]
      refine ih (inside _ hmem) hinner fun upper lower hnames => ?_
      have := hfree (name :: upper) lower (by rw [hnames, List.cons_append])
      rwa [descend?_of_mem sorted hmem] at this

/-- The record of a node is read from the node. -/
theorem get?_identifierKey {ident : ListIdentifier} (h : tree.Sorted)
    (hident : tree.identifier = some ident) (hid : ident.id.DistinctKeys) :
    tree.toJson.mergeKeys.get? identifierKey = some ident.toJson := by
  obtain ⟨sorted, inside⟩ := h
  obtain rfl : _ = some ident := hident
  rw [get?_mergeKeys_toJson sorted, identifierMember, lookup_cons_eq, if_pos rfl, Option.some_or,
    Option.map_some]
  exact congrArg some (ListIdentifier.distinctKeys_toJson hid).mergeKeys_eq

theorem Sorted.of_descend? (h : tree.Sorted) {names : List String} {inner : IdentifierTree}
    (hinner : descend? names tree = some inner) : inner.Sorted := by
  induction names generalizing tree with
  | nil =>
      obtain rfl := Option.some.inj hinner
      exact h
  | cons name names ih =>
      obtain ⟨sorted, inside⟩ := h
      obtain ⟨child, hchild, hinner⟩ := Option.bind_eq_some_iff.mp hinner
      exact ih (inside _ (mem_of_lookup hchild)) hinner

/-! ## sequences of records -/

/-- The tree after a sequence of records. -/
def ofRecords (calls : List (Path × ListIdentifier)) : IdentifierTree :=
  calls.foldl (fun tree call => tree.record call.1 call.2) empty

variable {calls : List (Path × ListIdentifier)} {path : Path} {ident : ListIdentifier}

theorem ofRecords_concat (calls : List (Path × ListIdentifier)) (call : Path × ListIdentifier) :
    ofRecords (calls ++ [call]) = (ofRecords calls).record call.1 call.2 := by
  rw [ofRecords, List.foldl_append]
  rfl

theorem sorted_ofRecords (calls : List (Path × ListIdentifier)) : (ofRecords calls).Sorted := by
  induction calls using List.reverseRecOn with
  | nil => exact sorted_empty
  | append_singleton calls call ih =>
      rw [ofRecords_concat]
      exact sorted_recordAt ih

/-- At each path stands what was recorded there last. -/
theorem find?_ofRecords (calls : List (Path × ListIdentifier)) (path : Path) :
    (ofRecords calls).find? path = calls.reverse.lookup path := by
  induction calls using List.reverseRecOn with
  | nil => exact find?_empty path
  | append_singleton calls call ih =>
      rw [ofRecords_concat, find?_record (sorted_ofRecords calls), ih, List.reverse_concat,
        List.lookup_cons]
      by_cases hpath : path = call.1
      · rw [if_pos hpath, beq_iff_eq.mpr hpath]
      · rw [if_neg hpath, beq_eq_false_iff_ne.mpr hpath]

theorem mem_of_find?_ofRecords (h : (ofRecords calls).find? path = some ident) :
    (path, ident) ∈ calls := by
  rw [find?_ofRecords] at h
  obtain ⟨later, earlier, heq, -⟩ := List.lookup_eq_some_iff.mp h
  rw [← List.mem_reverse, heq]
  exact List.mem_append_right _ List.mem_cons_self

/-- The induction is on the names recorded under. -/
theorem isSome_descend?_recordAt {names : List String} (h : tree.Sorted) (places : List String) :
    (descend? places (recordAt names ident tree)).isSome = true ↔
      (descend? places tree).isSome = true ∨ places <+: names := by
  induction names generalizing tree places with
  | nil =>
      obtain ⟨sorted, inside⟩ := h
      cases places with
      | nil => simp [descend?]
      | cons place places => simp [recordAt, descend?]
  | cons name names ih =>
      obtain ⟨sorted, inside⟩ := h
      cases places with
      | nil => simp [descend?]
      | cons place places =>
          rw [descend?_recordAt_cons sorted, List.cons_prefix_cons]
          by_cases hname : place = name
          · subst hname
            rw [if_pos rfl, ih (sorted_getD_lookup inside place), descend?]
            cases List.lookup place _ with
            | none => cases places <;> simp [descend?, empty]
            | some child => simp
          · simp [hname]

/-- There are nodes on the way to the records, and no others. -/
theorem isSome_descend?_ofRecords (calls : List (Path × ListIdentifier)) (names : List String) :
    (descend? names (ofRecords calls)).isSome = true ↔
      names = [] ∨ ∃ call ∈ calls, names <+: call.1.segments := by
  induction calls using List.reverseRecOn with
  | nil => cases names <;> simp [ofRecords, empty, descend?]
  | append_singleton calls call ih =>
      rw [ofRecords_concat, record, isSome_descend?_recordAt (sorted_ofRecords calls), ih]
      simp [or_and_right, exists_or, or_assoc]

/-- A child gets in the way of a record if one recorded path goes on from
another with the key of the record. -/
theorem separate_ofRecords_iff :
    (ofRecords calls).Separate ↔
      ∀ upper ∈ calls, ∀ lower ∈ calls,
        lower.1.isWithin (upper.1.child identifierKey) = false := by
  constructor
  · intro h upper hupper lower hlower
    have hrecorded : (calls.reverse.lookup upper.1).isSome = true :=
      List.lookup_isSome_iff.mpr ⟨upper, List.mem_reverse.mpr hupper, beq_self_eq_true _⟩
    obtain ⟨ident, hident⟩ := Option.isSome_iff_exists.mp hrecorded
    rw [← find?_ofRecords] at hident
    have hnone := h upper.1.segments ident hident
    rw [← Bool.not_eq_true, Path.isWithin_child_iff]
    intro hprefix
    have hsome := (isSome_descend?_ofRecords calls _).mpr (.inr ⟨lower, hlower, hprefix⟩)
    rw [hnone] at hsome
    exact Bool.false_ne_true hsome
  · intro h names ident hident
    have hupper : ((⟨names⟩ : Path), ident) ∈ calls := mem_of_find?_ofRecords hident
    rw [← Option.not_isSome_iff_eq_none, isSome_descend?_ofRecords]
    rintro (hnil | ⟨lower, hlower, hprefix⟩)
    · exact List.append_ne_nil_of_right_ne_nil names (List.cons_ne_nil _ _) hnil
    · have hwithin : lower.1.isWithin (Path.child ⟨names⟩ identifierKey) = true :=
        Path.isWithin_child_iff.mpr hprefix
      rw [h _ hupper lower hlower] at hwithin
      exact Bool.false_ne_true hwithin

/-- A record is read back where no other one is read on the way to it. -/
theorem follow?_of_recorded (hid : ident.id.DistinctKeys)
    (hrecorded : (ofRecords calls).find? path = some ident)
    (hfree : ∀ upper ∈ calls, path.isWithin (upper.1.child identifierKey) = false) :
    (ofRecords calls).toJson.mergeKeys.follow? (path.segments ++ [identifierKey]) =
      some ident.toJson := by
  obtain ⟨inner, hinner, hident⟩ := Option.bind_eq_some_iff.mp hrecorded
  have hnames : (ofRecords calls).toJson.mergeKeys.follow? path.segments =
      some inner.toJson.mergeKeys := by
    refine follow?_mergeKeys_toJson (sorted_ofRecords calls) hinner fun upper lower heq => ?_
    cases hupper : (descend? upper (ofRecords calls)).bind identifier with
    | none => rfl
    | some other =>
        have hmem : ((⟨upper⟩ : Path), other) ∈ calls := mem_of_find?_ofRecords hupper
        have hwithin : path.isWithin (Path.child ⟨upper⟩ identifierKey) = true :=
          Path.isWithin_child_iff.mpr ⟨lower, by rw [heq, List.append_assoc, List.singleton_append]⟩
        rw [hfree _ hmem] at hwithin
        exact absurd hwithin Bool.false_ne_true
  rw [Json.follow?_append, hnames, Option.bind_some, Json.follow?,
    get?_identifierKey ((sorted_ofRecords calls).of_descend? hinner) hident hid, Option.bind_some,
    Json.follow?]

/-- The object of a tree has no key twice and leads to the last record of
each path, exactly if no recorded path goes on from another one with the key
of a record.  Otherwise each record that is not below another one in this
way is still found by a reader that keeps the last value of a repeated key.
The requests are taken to have no key twice, as whatever was read from a
document. -/
theorem written_iff (hids : ∀ call ∈ calls, call.2.id.DistinctKeys) :
    (((ofRecords calls).toJson.DistinctKeys ∧
        ∀ path ident, calls.reverse.lookup path = some ident →
          (ofRecords calls).toJson.follow? (path.segments ++ [identifierKey]) =
            some ident.toJson) ↔
      ∀ upper ∈ calls, ∀ lower ∈ calls,
        lower.1.isWithin (upper.1.child identifierKey) = false) ∧
    ∀ path ident, calls.reverse.lookup path = some ident →
      (∀ upper ∈ calls, path.isWithin (upper.1.child identifierKey) = false) →
      (ofRecords calls).toJson.mergeKeys.follow? (path.segments ++ [identifierKey]) =
        some ident.toJson := by
  have hread : ∀ path ident, calls.reverse.lookup path = some ident →
      (path, ident) ∈ calls ∧
        ((∀ upper ∈ calls, path.isWithin (upper.1.child identifierKey) = false) →
          (ofRecords calls).toJson.mergeKeys.follow? (path.segments ++ [identifierKey]) =
            some ident.toJson) := by
    intro path ident hlast
    rw [← find?_ofRecords] at hlast
    have hmem := mem_of_find?_ofRecords hlast
    exact ⟨hmem, follow?_of_recorded (hids _ hmem) hlast⟩
  have hdistinct : (ofRecords calls).toJson.DistinctKeys ↔ _ :=
    (distinctKeys_toJson_iff (sorted_ofRecords calls) fun names ident hident =>
      hids _ (mem_of_find?_ofRecords hident)).trans separate_ofRecords_iff
  refine ⟨⟨fun h => hdistinct.mp h.1, fun h => ⟨hdistinct.mpr h, fun path ident hlast => ?_⟩⟩,
    fun path ident hlast => (hread path ident hlast).2⟩
  obtain ⟨hmem, hmerged⟩ := hread path ident hlast
  rw [← (hdistinct.mpr h).mergeKeys_eq]
  exact hmerged fun upper hupper => h upper hupper _ hmem

/-- A list within the items of a list that is recorded twice. -/
theorem written_iff_of_nested :
    let calls : List (Path × ListIdentifier) :=
      [(⟨["contacts"]⟩, ⟨.boolean true, .uuid⟩),
        (⟨["contacts", "phones"]⟩, ⟨.boolean true, .bigint⟩),
        (⟨["contacts"]⟩, ⟨.boolean true, .bigint⟩)]
    (∀ call ∈ calls, call.2.id.DistinctKeys) ∧
    (ofRecords calls).toJson.DistinctKeys ∧
    (ofRecords calls).toJson.follow? ["contacts", identifierKey] =
      some (.object [("id", .boolean true), ("format", .string "bigint")]) ∧
    (ofRecords calls).toJson.mergeKeys.follow? ["contacts", "phones", identifierKey] =
      some (.object [("id", .boolean true), ("format", .string "bigint")]) := by
  intro calls
  have hids : ∀ call ∈ calls, call.2.id.DistinctKeys := by
    simp only [calls, List.forall_mem_cons, List.not_mem_nil, false_implies, implies_true, and_true]
    exact ⟨.boolean, .boolean, .boolean⟩
  have hfree : ∀ upper ∈ calls, ∀ lower ∈ calls,
      lower.1.isWithin (upper.1.child identifierKey) = false := by decide +kernel
  have houter : calls.reverse.lookup ⟨["contacts"]⟩ = some ⟨.boolean true, .bigint⟩ := by
    with_unfolding_all rfl
  have hinner : calls.reverse.lookup ⟨["contacts", "phones"]⟩ = some ⟨.boolean true, .bigint⟩ := by
    with_unfolding_all rfl
  obtain ⟨hwhole, heach⟩ := written_iff hids
  obtain ⟨hdistinct, hread⟩ := hwhole.mpr hfree
  exact ⟨hids, hdistinct, hread _ _ houter, heach _ _ hinner (by decide +kernel)⟩

/-- A list named as the key of a record, within the items of a list: its
record and the one of the outer list stand under the same key, and a reader
that keeps the last value finds the outer one only. -/
theorem record_hides_child :
    let calls : List (Path × ListIdentifier) :=
      [(⟨["contacts"]⟩, ⟨.boolean true, .uuid⟩),
        (⟨["contacts", "_id"]⟩, ⟨.boolean true, .bigint⟩)]
    calls.reverse.lookup ⟨["contacts", "_id"]⟩ = some ⟨.boolean true, .bigint⟩ ∧
    ¬ (ofRecords calls).toJson.DistinctKeys ∧
    (ofRecords calls).toJson.mergeKeys.follow? ["contacts", "_id", identifierKey] = none ∧
    (ofRecords calls).toJson.mergeKeys.follow? ["contacts", identifierKey] =
      some (.object [("id", .boolean true), ("format", .string "uuid")]) := by
  intro calls
  refine ⟨by with_unfolding_all rfl, fun h => ?_, by with_unfolding_all rfl,
    by with_unfolding_all rfl⟩
  have hwritten : (ofRecords calls).toJson = .object [("contacts", .object
      [("_id", .object [("_id", .object [("id", .boolean true), ("format", .string "bigint")])]),
        ("_id", .object [("id", .boolean true), ("format", .string "uuid")])])] := by
    with_unfolding_all rfl
  rw [hwritten] at h
  have hrepeated := Json.distinctKeys_object_iff.mp (h.of_mem_fields List.mem_cons_self)
  exact absurd hrepeated.1 (by decide)

end IdentifierTree

end FormCompiler
