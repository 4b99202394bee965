import FormCompiler.References
import Mathlib.Logic.Relation

/-!
# FormCompiler.Proofs.ReferenceGraph

The graph of references between bundles.  It is described without the
traversal that resolves it:

* `Bundle.RefersTo` — an attribute of the bundle refers to the digest, in an
  array or not;
* `Registry.Reaches` — a bundle is the base, or loaded under a digest that a
  reached bundle refers to;
* `Registry.Refers` — the edges between the digests of reached bundles;
* `Registry.Resolvable` — every reference is loaded, every type is known,
  and the edges close no cycle.
-/

namespace FormCompiler

/-! ## references of one bundle -/

/-- An attribute of the bundle refers to the digest, in an array or not. -/
def Bundle.RefersTo (bundle : Bundle) (digest : String) : Prop :=
  ∃ attr ∈ bundle.attributes, attr.type.reference? = some digest

instance (bundle : Bundle) (digest : String) : Decidable (bundle.RefersTo digest) :=
  inferInstanceAs (Decidable (∃ attr ∈ bundle.attributes, attr.type.reference? = some digest))

/-- The digest that the last reference attribute of a name refers to. -/
def lastReference? : List Attribute → String → Option String
  | [], _ => none
  | attr :: attrs, name =>
    (lastReference? attrs name).or (if attr.name = name then attr.type.reference? else none)

/-- The last reference of a name is declared by an attribute of that name. -/
theorem mem_of_lastReference? {attrs : List Attribute} {name digest : String}
    (h : lastReference? attrs name = some digest) :
    ∃ attr ∈ attrs, attr.name = name ∧ attr.type.reference? = some digest := by
  induction attrs with
  | nil => simp [lastReference?] at h
  | cons attr attrs ih =>
      rw [lastReference?, Option.or_eq_some_iff] at h
      rcases h with h | ⟨-, h⟩
      · obtain ⟨found, hmem, hfound⟩ := ih h
        exact ⟨found, List.mem_cons_of_mem attr hmem, hfound⟩
      · split at h
        · next hname => exact ⟨attr, List.mem_cons_self, hname, h⟩
        · contradiction

/-- A name has a last reference attribute as soon as it has one. -/
theorem isSome_lastReference? {attrs : List Attribute} {attr : Attribute} {digest : String}
    (hmem : attr ∈ attrs) (href : attr.type.reference? = some digest) :
    (lastReference? attrs attr.name).isSome := by
  induction attrs with
  | nil => simp at hmem
  | cons head attrs ih =>
      rw [lastReference?, Option.isSome_or, Bool.or_eq_true]
      rcases List.mem_cons.mp hmem with rfl | hmem
      · right
        simp [href]
      · left
        exact ih hmem

/-- A type refers to a digest whether it is an array or not. -/
theorem AttributeType.reference?_eq_some_iff {type : AttributeType} {digest : String} :
    type.reference? = some digest ↔ type.base = .reference digest := by
  unfold reference?
  cases type.base <;> simp

/-- The base type of an attribute is what the bundle refers to. -/
theorem Bundle.RefersTo.of_type {bundle : Bundle} {attr : Attribute} {digest : String}
    (hattr : attr ∈ bundle.attributes) (type : attr.type.base = .reference digest) :
    bundle.RefersTo digest :=
  ⟨attr, hattr, AttributeType.reference?_eq_some_iff.mpr type⟩

theorem AttributeType.reference?_of_primitive {type : AttributeType} {kind : Primitive}
    (h : type.base = .primitive kind) : type.reference? = none := by
  rw [reference?, h]

theorem References.find?_empty (owner name : String) : empty.find? owner name = none := rfl

/-! ## the graph reached from a base -/

namespace Registry

/-- The bundles that following references meets, beginning at a base. -/
inductive Reaches (registry : Registry) (base : Bundle) : Bundle → Prop
  | base : Reaches registry base base
  | step {owner target : Bundle} {digest : String} (reached : Reaches registry base owner)
      (refers : owner.RefersTo digest) (loaded : registry.find? digest = some target) :
      Reaches registry base target

/-- The edges between the digests of reached bundles. -/
def Refers (registry : Registry) (base : Bundle) (digest target : String) : Prop :=
  ∃ owner, registry.Reaches base owner ∧ owner.digest = digest ∧ owner.RefersTo target

/-- A bundle whose references are loaded, of known types and without cycle,
along with those of every bundle it reaches. -/
structure Resolvable (registry : Registry) (base : Bundle) : Prop where
  /-- Whatever a reached bundle refers to is loaded. -/
  loaded : ∀ owner, registry.Reaches base owner → ∀ digest, owner.RefersTo digest →
    ∃ target, registry.find? digest = some target
  /-- No reached bundle has an attribute of no known type. -/
  recognized : ∀ owner, registry.Reaches base owner → ∀ attr ∈ owner.attributes, ∀ raw,
    attr.type.base ≠ .unrecognized raw
  /-- No digest leads back to itself. -/
  acyclic : ∀ digest, ¬ Relation.TransGen (registry.Refers base) digest digest

/-- A loaded bundle is found under its own digest. -/
theorem digest_of_find? {registry : Registry} {digest : String} {bundle : Bundle}
    (h : registry.find? digest = some bundle) : bundle.digest = digest :=
  registry.keyed digest bundle h

/-- A bundle that is added takes the place of one with the same digest. -/
theorem find?_add (registry : Registry) (bundle : Bundle) (digest : String) :
    (registry.add bundle).find? digest =
      if digest = bundle.digest then some bundle else registry.find? digest :=
  Dictionary.find?_insert registry.bundles bundle.digest digest bundle

/-- Of the bundles of one digest the last one is loaded. -/
theorem find?_ofList (bundles : List Bundle) (digest : String) :
    (ofList bundles).find? digest = bundles.reverse.find? fun bundle => bundle.digest = digest := by
  suffices h : ∀ registry : Registry, (bundles.foldl add registry).find? digest =
      (bundles.reverse.find? fun bundle => bundle.digest = digest).or (registry.find? digest) by
    rw [ofList, h empty]
    exact Option.or_none
  induction bundles with
  | nil => intro registry; rfl
  | cons bundle bundles ih =>
      intro registry
      rw [List.foldl_cons, ih, find?_add, List.reverse_cons, List.find?_append, Option.or_assoc]
      congr 1
      by_cases h : bundle.digest = digest
      · simp [h]
      · simp [h, Ne.symm h]

end Registry

end FormCompiler
