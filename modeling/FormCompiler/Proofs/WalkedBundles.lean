import FormCompiler.Proofs.Resolution
import FormCompiler.Walker

/-!
# FormCompiler.Proofs.WalkedBundles

Where a walk looks up the bundles that attributes refer to.  A walker whose
references are those of a resolved base finds, from every bundle the base
reaches, exactly the loaded bundle of the last reference of a name
(`Walker.dependency?_eq_target?`); what it finds is reached in turn.
-/

namespace FormCompiler

namespace Registry

/-- The loaded bundle that the last reference attribute of a name refers to. -/
def target? (registry : Registry) (owner : Bundle) (name : String) : Option Bundle :=
  (lastReference? owner.attributes name).bind registry.find?

end Registry

namespace Walker

variable {w : Walker} {base owner dep : Bundle} {name : String}

/-- From a reached bundle, a walk finds the bundle that its last reference of
the name refers to. -/
theorem dependency?_eq_target? (hw : w.registry.resolve base = .ok w.references)
    (howner : w.registry.Reaches base owner) (name : String) :
    w.dependency? owner name = w.registry.target? owner name := by
  obtain ⟨hok, hrefs⟩ := Registry.resolve_eq_ok_iff.mp hw
  rw [dependency?, Registry.target?, ← hrefs, Registry.find?_of_reaches hok howner]

/-- What is found from a reached bundle is reached. -/
theorem reaches_of_dependency? (hw : w.registry.resolve base = .ok w.references)
    (howner : w.registry.Reaches base owner) (h : w.dependency? owner name = some dep) :
    w.registry.Reaches base dep := by
  rw [dependency?_eq_target? hw howner, Registry.target?, Option.bind_eq_some_iff] at h
  obtain ⟨digest, hlast, hfind⟩ := h
  obtain ⟨attr, hattr, -, href⟩ := mem_of_lastReference? hlast
  exact howner.step ⟨attr, hattr, href⟩ hfind

/-- From a reached bundle every reference is found. -/
theorem exists_dependency? (hw : w.registry.resolve base = .ok w.references)
    (howner : w.registry.Reaches base owner) {attr : Attribute} {digest : String}
    (hattr : attr ∈ owner.attributes) (href : attr.type.reference? = some digest) :
    ∃ dep, w.dependency? owner attr.name = some dep := by
  obtain ⟨hok, -⟩ := Registry.resolve_eq_ok_iff.mp hw
  obtain ⟨target, hlast⟩ := Option.isSome_iff_exists.mp (isSome_lastReference? hattr href)
  obtain ⟨found, hfound, -, htarget⟩ := mem_of_lastReference? hlast
  obtain ⟨dep, hdep⟩ := (Registry.resolvable_of_resolution hok).loaded owner howner target
    ⟨found, hfound, htarget⟩
  refine ⟨dep, ?_⟩
  rw [dependency?_eq_target? hw howner, Registry.target?, hlast, Option.bind_some, hdep]

end Walker

/-! ## attributes by name -/

namespace Bundle

theorem mem_of_attribute? {bundle : Bundle} {name : String} {attr : Attribute}
    (h : bundle.attribute? name = some attr) : attr ∈ bundle.attributes :=
  List.mem_of_find?_eq_some h

theorem name_of_attribute? {bundle : Bundle} {name : String} {attr : Attribute}
    (h : bundle.attribute? name = some attr) : attr.name = name := by
  simpa using List.find?_some h

end Bundle

end FormCompiler
