import FormCompiler.Proofs.ResolutionObstacles
import FormCompiler.Proofs.UnreachedBundles

/-!
# FormCompiler.Proofs.ReportedCycles

The cycles that a resolution reports.  A reported cycle is a trail of
references that begins at the base and ends at a digest on it
(`Registry.reported_cycle_genuine`).

Conversely, references that close a cycle are never resolved, but the base
itself need not be loaded, and a reference to a bundle that is not loaded
stops the resolution before it is known to close a cycle.  So a cycle is
reported exactly if one is met before any reference to a base that is not
loaded (`Registry.cycle_reported_iff`).
-/

namespace FormCompiler

namespace Registry

variable {base bundle : Bundle} {dependencies : List Bundle}

/-! ## reports are genuine -/

/-- The bundle that a path of references has at a position: first the base,
then the loaded ones. -/
def bundleAt? (registry : Registry) (base : Bundle) (position : Nat) (digest : String) :
    Option Bundle :=
  if position = 0 then some base else registry.find? digest

/-- Each digest is followed by one that its bundle refers to. -/
def Linked (registry : Registry) (base : Bundle) (digests : List String) : Prop :=
  ∀ position digest target, digests[position]? = some digest →
    digests[position + 1]? = some target →
    ∃ bundle, registry.bundleAt? base position digest = some bundle ∧ bundle.RefersTo target

/-- Along a trail each bundle refers to the next one, and the last one to
whatever it refers to. -/
theorem Trail.linked {registry : Registry} {path : List String} {digest : String}
    (trail : registry.Trail base path bundle) (refers : bundle.RefersTo digest) :
    registry.Linked base (path ++ [digest]) := by
  induction trail generalizing digest with
  | base =>
      intro position source target hsource htarget
      cases position with
      | zero =>
          obtain rfl : digest = target := Option.some.inj htarget
          exact ⟨base, rfl, refers⟩
      | succ position => simp at htarget
  | @step path owner last bundle trail refers' loaded offPath ih =>
      intro position source target hsource htarget
      have hle : position ≤ path.length := by
        have hlt := (List.getElem?_eq_some_iff.mp htarget).1
        simp only [List.length_append, List.length_singleton] at hlt
        omega
      obtain hlt | rfl := Nat.lt_or_eq_of_le hle
      · -- the pair stands on the path without the new digest
        rw [List.getElem?_append_left (by simpa using hlt)] at htarget
        rw [List.getElem?_append_left (by simp; omega)] at hsource
        exact ih refers' position source target hsource htarget
      · obtain rfl : last = source := by simpa using hsource
        obtain rfl : digest = target := by simpa using htarget
        have hpath : path.length ≠ 0 := List.length_eq_zero_iff.not.mpr trail.ne_nil
        exact ⟨bundle, by rw [bundleAt?, if_neg hpath, loaded], refers⟩

/-- **Reported cycles are genuine.**  A reported cycle begins at the base and
ends at a digest that it has met before, with no other digest twice; each of
its digests is followed by one that the bundle of the digest refers to. -/
theorem reported_cycle_genuine {cycle : List String}
    (h : (ofList dependencies).resolve base = .error (.cyclicReference cycle)) :
    2 ≤ cycle.length ∧ cycle.head? = some base.digest ∧ cycle.dropLast.Nodup ∧
      (∃ last ∈ cycle.dropLast, cycle.getLast? = some last) ∧
      (ofList dependencies).Linked base cycle := by
  obtain ⟨place, hblocked, -⟩ := resolve_eq_error_iff.mp h
  obtain ⟨path, owner, attr, hattr, trail, obstacle⟩ := hblocked.exists_trail .base
  cases obstacle with
  | @cyclic digest target type loaded onPath =>
      have hlength : 0 < path.length := List.length_pos_iff.mpr trail.ne_nil
      refine ⟨?_, ?_, ?_, ⟨digest, ?_, ?_⟩, trail.linked (.of_type hattr type)⟩
      · rw [List.length_append]
        exact Nat.succ_le_succ hlength
      · rw [List.head?_append, trail.head?, Option.some_or]
      · rw [List.dropLast_concat]
        exact trail.nodup
      · rwa [List.dropLast_concat]
      · exact List.getLast?_concat

/-- Two bundles below the base refer to each other. -/
theorem reported_cycle_genuine_of_pair :
    let base : Bundle := ⟨"Eperson", [.bare "home" (.scalar (.reference "Eaddress"))], .empty⟩
    let address : Bundle := ⟨"Eaddress", [.bare "place" (.array (.reference "Eplace"))], .empty⟩
    let place : Bundle := ⟨"Eplace", [.bare "seat" (.scalar (.reference "Eaddress"))], .empty⟩
    let cycle := ["Eperson", "Eaddress", "Eplace", "Eaddress"]
    (ofList [address, place]).resolve base = .error (.cyclicReference cycle) ∧
      cycle.dropLast.Nodup ∧ (ofList [address, place]).Linked base cycle := by
  intro base address place cycle
  have hresolve : (ofList [address, place]).resolve base = .error (.cyclicReference cycle) := by
    cbv
  obtain ⟨-, -, hnodup, -, hlinked⟩ := reported_cycle_genuine hresolve
  exact ⟨hresolve, hnodup, hlinked⟩

/-! ## cycles that are reported -/

/-- Whatever is reached is of known types and loaded; only the base itself
need not be loaded. -/
structure LoadedButBase (registry : Registry) (base : Bundle) : Prop where
  recognized : ∀ owner, registry.Reaches base owner → ∀ attr ∈ owner.attributes, ∀ raw,
    attr.type.base ≠ .unrecognized raw
  loaded : ∀ owner, registry.Reaches base owner → ∀ digest, owner.RefersTo digest →
    digest ≠ base.digest → ∃ target, registry.find? digest = some target

/-- The type of an attribute is known, and what it refers to is loaded or the
base. -/
def knows (registry : Registry) (base : Bundle) (attr : Attribute) : Bool :=
  match attr.type.base with
  | .primitive _ => true
  | .reference digest => digest == base.digest || (registry.find? digest).isSome
  | .unrecognized _ => false

/-- Depth first and in attribute order, references lead to a cycle before
any reference to the base is met that is not loaded. -/
def MeetsCycleFirst (registry : Registry) (base : Bundle) : Prop :=
  ∃ place cycle, registry.BlockedAt [base.digest] base.attributes place (.cyclicReference cycle) ∧
    ∀ other name, registry.BlockedAt [base.digest] base.attributes other
      (.unresolvedReference name base.digest) → List.Lex (· < ·) place other

section Reports

variable {registry : Registry} {place : List Nat} {error : CompileError}

/-- It is enough to look at the base and at all loaded bundles. -/
theorem loadedButBase_of_all (h : ((base :: dependencies).all fun owner =>
    owner.attributes.all ((ofList dependencies).knows base)) = true) :
    (ofList dependencies).LoadedButBase base := by
  have hknows : ∀ owner, (ofList dependencies).Reaches base owner → ∀ attr ∈ owner.attributes,
      (ofList dependencies).knows base attr = true := by
    intro owner howner attr hattr
    have hmem : owner ∈ base :: dependencies := List.mem_cons.mpr (eq_or_mem_of_reaches howner)
    exact List.all_eq_true.mp (List.all_eq_true.mp h owner hmem) attr hattr
  constructor
  · intro owner howner attr hattr raw htype
    have hattr := hknows owner howner attr hattr
    simp [knows, htype] at hattr
  · rintro owner howner digest ⟨attr, hattr, href⟩ hne
    have hattr := hknows owner howner attr hattr
    rw [knows, AttributeType.reference?_eq_some_iff.mp href] at hattr
    simpa [hne, Option.isSome_iff_exists] using hattr

/-- Then an obstacle is a cycle, or a reference to the base that is not
loaded. -/
theorem LoadedButBase.error_of_blockedAt (h : registry.LoadedButBase base)
    (hblocked : registry.BlockedAt [base.digest] base.attributes place error) :
    (∃ cycle, error = .cyclicReference cycle) ∨
      registry.find? base.digest = none ∧
        (∃ owner, registry.Reaches base owner ∧ owner.RefersTo base.digest) ∧
        ∃ name, error = .unresolvedReference name base.digest := by
  obtain ⟨path, owner, attr, hattr, trail, obstacle⟩ := hblocked.exists_trail .base
  cases obstacle with
  | unsupported type => exact absurd type (h.recognized owner trail.reaches attr hattr _)
  | cyclic => exact .inl ⟨_, rfl⟩
  | @unresolved digest type missing =>
      have hrefers := Bundle.RefersTo.of_type hattr type
      by_cases hbase : digest = base.digest
      · subst hbase
        exact .inr ⟨missing, ⟨owner, trail.reaches, hrefers⟩, _, rfl⟩
      · obtain ⟨target, hloaded⟩ := h.loaded owner trail.reaches digest hrefers hbase
        simp [missing] at hloaded

/-- References that close a cycle are not resolved. -/
theorem exists_error_of_cycle
    (hcycle : ∃ digest, Relation.TransGen (registry.Refers base) digest digest) :
    ∃ error, registry.resolve base = .error error := by
  cases hresolve : registry.resolve base with
  | error error => exact ⟨error, rfl⟩
  | ok references =>
      obtain ⟨digest, hcycle⟩ := hcycle
      have hresolvable := resolvable_of_resolution (resolve_eq_ok_iff.mp hresolve).1
      exact absurd hcycle (hresolvable.acyclic digest)

/-- A cycle that is reported is met first. -/
theorem meetsCycleFirst_of_resolve {cycle : List String}
    (h : registry.resolve base = .error (.cyclicReference cycle)) :
    registry.MeetsCycleFirst base := by
  obtain ⟨place, hblocked, hfirst⟩ := resolve_eq_error_iff.mp h
  refine ⟨place, cycle, hblocked, fun other name hother => ?_⟩
  refine (hfirst other _ hother).resolve_left ?_
  rintro rfl
  cases hblocked.unique hother

/-- No cycle is met before a reference that is reported. -/
theorem not_meetsCycleFirst_of_resolve {name : String}
    (h : registry.resolve base = .error (.unresolvedReference name base.digest)) :
    ¬ registry.MeetsCycleFirst base := by
  obtain ⟨place, hblocked, hfirst⟩ := resolve_eq_error_iff.mp h
  rintro ⟨place', cycle, hblocked', hbefore⟩
  have hlex := hbefore place name hblocked
  obtain rfl | hlex' := hfirst place' _ hblocked'
  · exact List.lt_irrefl _ hlex
  · exact List.lt_asymm hlex hlex'

end Reports

/-- **When a cycle is reported as a cycle.**  Let the types that are reached
be known and the references loaded, but for those to the base, and let the
references close a cycle.  Then the resolution fails; it reports a cycle
exactly if one is met before any reference to the base that is not loaded,
in particular if the base is loaded or nothing that is reached refers to it.
Otherwise it reports such a reference. -/
theorem cycle_reported_iff (hreached : (ofList dependencies).LoadedButBase base)
    (hcycle : ∃ digest, Relation.TransGen ((ofList dependencies).Refers base) digest digest) :
    ((∃ cycle, (ofList dependencies).resolve base = .error (.cyclicReference cycle)) ↔
      (ofList dependencies).MeetsCycleFirst base) ∧
    ((∃ bundle, (ofList dependencies).find? base.digest = some bundle) →
      (ofList dependencies).MeetsCycleFirst base) ∧
    ((∀ owner, (ofList dependencies).Reaches base owner → ¬ owner.RefersTo base.digest) →
      (ofList dependencies).MeetsCycleFirst base) ∧
    (¬ (ofList dependencies).MeetsCycleFirst base →
      ∃ name, (ofList dependencies).resolve base =
        .error (.unresolvedReference name base.digest)) := by
  obtain ⟨error, herror⟩ := exists_error_of_cycle hcycle
  obtain ⟨place, hblocked, -⟩ := resolve_eq_error_iff.mp herror
  obtain ⟨cycle, rfl⟩ | ⟨hmissing, ⟨owner, howner, hrefers⟩, name, rfl⟩ :=
    hreached.error_of_blockedAt hblocked
  · have hfirst := meetsCycleFirst_of_resolve herror
    exact ⟨⟨fun _ => hfirst, fun _ => ⟨cycle, herror⟩⟩, fun _ => hfirst, fun _ => hfirst,
      fun hnot => absurd hfirst hnot⟩
  · have hnot := not_meetsCycleFirst_of_resolve herror
    refine ⟨⟨?_, fun hfirst => absurd hfirst hnot⟩, ?_, ?_, fun _ => ⟨name, herror⟩⟩
    · rintro ⟨cycle, hcyclic⟩
      cases herror.symm.trans hcyclic
    · rintro ⟨bundle, hbundle⟩
      simp [hmissing] at hbundle
    · exact fun hnone => absurd hrefers (hnone owner howner)

/-- Two bundles that refer to each other, and one of them to the base, which
is not loaded: the cycle of the two is met first. -/
theorem cycle_reported_iff_of_pair :
    let base : Bundle := ⟨"Eperson", [.bare "home" (.scalar (.reference "Eaddress"))], .empty⟩
    let address : Bundle := ⟨"Eaddress", [.bare "place" (.array (.reference "Eplace")),
      .bare "owner" (.scalar (.reference "Eperson"))], .empty⟩
    let place : Bundle := ⟨"Eplace", [.bare "seat" (.scalar (.reference "Eaddress"))], .empty⟩
    (ofList [address, place]).LoadedButBase base ∧
      (∃ digest, Relation.TransGen ((ofList [address, place]).Refers base) digest digest) ∧
      (ofList [address, place]).find? "Eperson" = none ∧
      (ofList [address, place]).MeetsCycleFirst base := by
  intro base address place
  have haddress : (ofList [address, place]).Reaches base address :=
    Reaches.base.step ⟨_, List.mem_cons_self, rfl⟩ (show _ = some address by decide +kernel)
  have hplace : (ofList [address, place]).Reaches base place :=
    haddress.step ⟨_, List.mem_cons_self, rfl⟩ (show _ = some place by decide +kernel)
  have hreached : (ofList [address, place]).LoadedButBase base :=
    loadedButBase_of_all (by decide +kernel)
  have hcycle : Relation.TransGen ((ofList [address, place]).Refers base) "Eaddress" "Eaddress" :=
    .tail (.single ⟨address, haddress, rfl, _, List.mem_cons_self, rfl⟩)
      ⟨place, hplace, rfl, _, List.mem_cons_self, rfl⟩
  refine ⟨hreached, ⟨_, hcycle⟩, by decide +kernel, ?_⟩
  exact (cycle_reported_iff hreached ⟨_, hcycle⟩).1.mp
    ⟨["Eperson", "Eaddress", "Eplace", "Eaddress"], by cbv⟩

/-- The base refers to an address, which refers back to it.  The base is not
loaded, and its cycle is reported as a reference that is not loaded. -/
theorem cycle_through_base_unresolved :
    let base : Bundle := ⟨"Eperson", [.bare "home" (.scalar (.reference "Eaddress"))], .empty⟩
    let address : Bundle := ⟨"Eaddress", [.bare "owner" (.scalar (.reference "Eperson"))], .empty⟩
    (ofList [address]).LoadedButBase base ∧
      Relation.TransGen ((ofList [address]).Refers base) "Eperson" "Eperson" ∧
      (ofList [address]).resolve base = .error (.unresolvedReference "owner" "Eperson") := by
  intro base address
  have haddress : (ofList [address]).Reaches base address :=
    Reaches.base.step ⟨_, List.mem_cons_self, rfl⟩ (show _ = some address by decide +kernel)
  have hcycle : Relation.TransGen ((ofList [address]).Refers base) "Eperson" "Eperson" :=
    .tail (.single ⟨base, .base, rfl, _, List.mem_cons_self, rfl⟩)
      ⟨address, haddress, rfl, _, List.mem_cons_self, rfl⟩
  exact ⟨loadedButBase_of_all (by decide +kernel), hcycle, by cbv⟩

end Registry

end FormCompiler
