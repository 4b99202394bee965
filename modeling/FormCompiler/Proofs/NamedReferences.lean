import FormCompiler.Bundle.Reader
import FormCompiler.Proofs.WalkOutcome
import FormCompiler.Proofs.WalkedBundles

/-!
# FormCompiler.Proofs.NamedReferences

Two ways to look up a reference by the name of its attribute.  A walk finds
the first attribute of the name; the resolved references hold what the last
reference of the name refers to, since a later one takes the place of an
earlier one.  The two agree exactly where the last reference of the name
refers to what the first attribute refers to
(`Registry.references_agree_iff`), and so wherever the name occurs once.  A
document may repeat a name, and then the page of an attribute may lead into
a bundle that the attribute does not refer to
(`Registry.repeated_name_overridden`).
-/

namespace FormCompiler

namespace Bundle

/-! ## two lookups -/

/-- What the attribute found under a name refers to. -/
def declaredReference? (bundle : Bundle) (name : String) : Option String :=
  (bundle.attribute? name).bind (·.type.reference?)

/-- An attribute of the name refers to the digest, and no attribute of the
name behind it is a reference. -/
def LastRefersTo (bundle : Bundle) (name digest : String) : Prop :=
  ∃ before attr after, bundle.attributes = before ++ attr :: after ∧ attr.name = name ∧
    attr.type.reference? = some digest ∧
    ∀ later ∈ after, later.name = name → later.type.reference? = none

/-- There is no last reference if no attribute of the name is one. -/
theorem lastReference?_eq_none_iff {attrs : List Attribute} {name : String} :
    lastReference? attrs name = none ↔
      ∀ attr ∈ attrs, attr.name = name → attr.type.reference? = none := by
  induction attrs with
  | nil => simp [lastReference?]
  | cons attr attrs ih =>
      rw [lastReference?, Option.or_eq_none_iff, ih, List.forall_mem_cons, and_comm]
      simp

/-- The last reference of a name has only others behind it that are no
references. -/
theorem lastReference?_eq_some_iff {attrs : List Attribute} {name digest : String} :
    lastReference? attrs name = some digest ↔
      ∃ before attr after, attrs = before ++ attr :: after ∧ attr.name = name ∧
        attr.type.reference? = some digest ∧
        ∀ later ∈ after, later.name = name → later.type.reference? = none := by
  induction attrs with
  | nil => simp [lastReference?]
  | cons attr attrs ih =>
      rw [lastReference?, Option.or_eq_some_iff, ih]
      constructor
      · rintro (⟨before, last, after, rfl, hlast⟩ | ⟨hnone, hattr⟩)
        · exact ⟨attr :: before, last, after, rfl, hlast⟩
        · split at hattr
          · next hname =>
              exact ⟨[], attr, attrs, rfl, hname, hattr, lastReference?_eq_none_iff.mp hnone⟩
          · contradiction
      · rintro ⟨before, last, after, hattrs, hname, href, hlater⟩
        cases before with
        | nil =>
            obtain ⟨rfl, rfl⟩ := List.cons.inj hattrs
            exact .inr ⟨lastReference?_eq_none_iff.mpr hlater, by rw [if_pos hname, href]⟩
        | cons first before =>
            obtain ⟨rfl, rfl⟩ := List.cons.inj hattrs
            exact .inl ⟨before, last, after, rfl, hname, href, hlater⟩

variable {bundle : Bundle} {name digest : String}

/-- The last reference of a name is what the search for it finds. -/
theorem lastRefersTo_iff :
    bundle.LastRefersTo name digest ↔ lastReference? bundle.attributes name = some digest :=
  lastReference?_eq_some_iff.symm

/-- Where no attribute of the name is a reference, both lookups find none. -/
theorem lastReference?_eq_declared_iff :
    lastReference? bundle.attributes name = bundle.declaredReference? name ↔
      ∀ digest, bundle.LastRefersTo name digest →
        bundle.declaredReference? name = some digest := by
  constructor
  · intro h digest hlast
    rw [← h]
    exact lastRefersTo_iff.mp hlast
  · intro h
    cases hlast : lastReference? bundle.attributes name with
    | some digest => exact (h digest (lastRefersTo_iff.mpr hlast)).symm
    | none =>
        cases hattr : bundle.attribute? name with
        | none => rw [declaredReference?, hattr, Option.bind_none]
        | some attr =>
            have href := lastReference?_eq_none_iff.mp hlast attr (mem_of_attribute? hattr)
              (name_of_attribute? hattr)
            rw [declaredReference?, hattr, Option.bind_some, href]

/-- Of a name that occurs once, the only attribute is both first and last. -/
theorem LastRefersTo.declaredReference? (h : bundle.LastRefersTo name digest)
    (honce : bundle.attributes.countP (·.name = name) ≤ 1) :
    bundle.declaredReference? name = some digest := by
  obtain ⟨before, attr, after, hattrs, hname, href, -⟩ := h
  have hbefore : before.countP (·.name = name) = 0 := by
    rw [hattrs, List.countP_append, List.countP_cons] at honce
    simp only [hname, decide_true, if_true] at honce
    omega
  have hnone : before.find? (·.name = name) = none :=
    List.find?_eq_none.mpr (List.countP_eq_zero.mp hbefore)
  have hfound : bundle.attribute? name = some attr := by
    rw [attribute?, hattrs, List.find?_append, hnone, Option.none_or, List.find?_cons]
    simp [hname]
  rw [Bundle.declaredReference?, hfound, Option.bind_some, href]

end Bundle

namespace Registry

/-- Loaded bundles are told apart by the digests they are found under. -/
theorem bind_find?_eq_iff {registry : Registry} {first second : Option String}
    (hfirst : ∀ digest, first = some digest → ∃ bundle, registry.find? digest = some bundle)
    (hsecond : ∀ digest, second = some digest → ∃ bundle, registry.find? digest = some bundle) :
    first.bind registry.find? = second.bind registry.find? ↔ first = second := by
  refine ⟨fun h => ?_, fun h => by rw [h]⟩
  cases first with
  | none =>
      cases second with
      | none => rfl
      | some digest =>
          obtain ⟨bundle, hbundle⟩ := hsecond digest rfl
          simp [hbundle] at h
  | some digest =>
      obtain ⟨bundle, hbundle⟩ := hfirst digest rfl
      cases second with
      | none => simp [hbundle] at h
      | some digest' =>
          rw [Option.bind_some, Option.bind_some, hbundle] at h
          rw [← digest_of_find? hbundle, ← digest_of_find? h.symm]

variable {base bundle : Bundle} {dependencies : List Bundle} {references : References}

/-- **When the resolved references agree with lookups by name.**  Under a name
of a reached bundle, the references hold what the last reference attribute of
this name refers to.  This is what the attribute found under the name refers
to exactly if the last reference refers to the same bundle as the first
attribute, in particular if the name occurs at most once.  Under the same
condition a walk enters the bundle that the attribute refers to. -/
theorem references_agree_iff (h : (ofList dependencies).resolve base = .ok references)
    (hbundle : (ofList dependencies).Reaches base bundle) (name : String) :
    (∀ digest, references.find? bundle.digest name = some digest ↔
      bundle.LastRefersTo name digest) ∧
    (references.find? bundle.digest name = bundle.declaredReference? name ↔
      ∀ digest, bundle.LastRefersTo name digest →
        bundle.declaredReference? name = some digest) ∧
    (bundle.attributes.countP (·.name = name) ≤ 1 →
      references.find? bundle.digest name = bundle.declaredReference? name) ∧
    ∀ w : Walker, w.registry = ofList dependencies → w.references = references →
      (w.dependency? bundle name = (bundle.declaredReference? name).bind w.registry.find? ↔
        ∀ digest, bundle.LastRefersTo name digest →
          bundle.declaredReference? name = some digest) := by
  obtain ⟨hok, rfl⟩ := resolve_eq_ok_iff.mp h
  have hfind := find?_of_reaches hok hbundle name
  have hagree : lastReference? bundle.attributes name = bundle.declaredReference? name ↔
      ∀ digest, bundle.LastRefersTo name digest → bundle.declaredReference? name = some digest :=
    Bundle.lastReference?_eq_declared_iff
  refine ⟨fun digest => ?_, ?_, fun honce => ?_, fun w hregistry hreferences => ?_⟩
  · rw [hfind]
    exact Bundle.lastRefersTo_iff.symm
  · rw [hfind]
    exact hagree
  · rw [hfind]
    exact hagree.mpr fun digest hlast => hlast.declaredReference? honce
  · -- Digests are compared by the bundles that stand for them, which are loaded.
    have hloaded := (resolvable_of_resolution hok).loaded bundle hbundle
    rw [Walker.dependency?, hreferences, hfind, hregistry, bind_find?_eq_iff, hagree]
    · intro digest hlast
      obtain ⟨attr, hattr, -, href⟩ := mem_of_lastReference? hlast
      exact hloaded digest ⟨attr, hattr, href⟩
    · intro digest hdeclared
      obtain ⟨attr, hattr, href⟩ := Option.bind_eq_some_iff.mp hdeclared
      exact hloaded digest ⟨attr, Bundle.mem_of_attribute? hattr, href⟩

/-- Below the base, in a bundle without repeated names, the references hold
what the attribute refers to. -/
theorem references_agree_iff_of_reached :
    let base : Bundle := ⟨"Eperson", [.bare "home" (.scalar (.reference "Eaddress"))], .empty⟩
    let address : Bundle := ⟨"Eaddress", [.bare "city" (.scalar (.primitive .text)),
      .bare "place" (.array (.reference "Eplace"))], .empty⟩
    let place : Bundle := ⟨"Eplace", [.bare "height" (.scalar (.primitive .numeric))], .empty⟩
    ∃ references, (ofList [place, address]).resolve base = .ok references ∧
      (ofList [place, address]).Reaches base address ∧
      address.attributes.countP (·.name = "place") ≤ 1 ∧
      references.find? "Eaddress" "place" = address.declaredReference? "place" := by
  intro base address place
  have hsome : ((ofList [place, address]).resolution base).failure.isNone = true := by
    decide +kernel
  have hok := resolve_eq_ok_iff.mpr ⟨Option.isNone_iff_eq_none.mp hsome, rfl⟩
  have hreaches : (ofList [place, address]).Reaches base address :=
    Reaches.base.step ⟨_, List.mem_cons_self, rfl⟩ (show _ = some address by decide +kernel)
  have honce : address.attributes.countP (·.name = "place") ≤ 1 := by decide
  exact ⟨_, hok, hreaches, honce, (references_agree_iff hok hreaches "place").2.2.1 honce⟩

/-- A document with two attributes `home`: the first one is found, and the
references hold what the second one refers to. -/
theorem repeated_name_overridden :
    let person : Json := .object [("digest", .string "Eperson"), ("attributes", .array [
      .object [("name", .string "home"), ("type", .string "refs:Eaddress")],
      .object [("name", .string "home"), ("type", .string "refs:Eplace")]])]
    let address : Bundle := ⟨"Eaddress", [.bare "city" (.scalar (.primitive .text))], .empty⟩
    let place : Bundle := ⟨"Eplace", [.bare "height" (.scalar (.primitive .numeric))], .empty⟩
    ∃ base references, Bundle.ofJson person = .ok base ∧
      (ofList [address, place]).resolve base = .ok references ∧
      (ofList [address, place]).Reaches base base ∧
      base.declaredReference? "home" = some "Eaddress" ∧
      references.find? base.digest "home" = some "Eplace" := by
  intro person address place
  let base : Bundle := ⟨"Eperson", [.bare "home" (.scalar (.reference "Eaddress")),
    .bare "home" (.scalar (.reference "Eplace"))], .empty⟩
  have hread : (Bundle.ofJson person).toOption = some base := by decide +kernel
  have hsome : ((ofList [address, place]).resolution base).failure.isNone = true := by
    decide +kernel
  exact ⟨base, _, ok_of_toOption hread,
    resolve_eq_ok_iff.mpr ⟨Option.isNone_iff_eq_none.mp hsome, rfl⟩, .base,
    by decide +kernel, by decide +kernel⟩

end Registry

end FormCompiler
