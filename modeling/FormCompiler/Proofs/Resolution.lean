import FormCompiler.Proofs.ResolutionRun
import Mathlib.Data.Set.Card

/-!
# FormCompiler.Proofs.Resolution

Resolution accepts exactly the closed acyclic graphs, and what it records is
what the reached bundles declare.

* A run that succeeds settles every attribute it deals with and every bundle
  it enters (`Run.settled`, `Run.settled_bundle`): the types are known, and
  the references are loaded, entered and off the path.
* A bundle that was left behind refers to bundles left behind before it, so
  references cannot be followed forever (`Run.acc`); this excludes cycles.
* Conversely a run over a resolvable graph meets no obstacle, since
  everything on its path leads to the current owner (`Run.succeeds`).

For a base the results are `resolution_of_resolvable`,
`resolvable_of_resolution` and the specification of the references,
`find?_of_reaches` with `reaches_of_find?`; `resolve_exact` puts them together.
-/

namespace FormCompiler

namespace Registry

/-- Nothing is left to do for an attribute: its type is known, and what it
refers to is loaded, entered and off the path. -/
structure Settled (registry : Registry) (path : List String) (final : Resolution)
    (attr : Attribute) : Prop where
  recognized : ∀ raw, attr.type.base ≠ .unrecognized raw
  entered : ∀ digest, attr.type.reference? = some digest →
    (∃ target, registry.find? digest = some target) ∧ digest ∈ final.entered ∧ digest ∉ path

/-- In the loaded bundles, `digest` refers to `target`. -/
def ReferredBy (registry : Registry) (target digest : String) : Prop :=
  ∃ bundle, registry.find? digest = some bundle ∧ bundle.RefersTo target

/-- Where a relation ends, it closes no cycle. -/
theorem not_transGen_of_acc {α : Type} {r : α → α → Prop} {a : α} (h : Acc r a) :
    ¬ Relation.TransGen r a a := by
  have hacc := h.transGen
  clear h
  induction hacc with
  | intro a _ ih => exact fun hcycle => ih a hcycle hcycle

namespace Settled

variable {registry : Registry} {path shorter : List String} {middle final : Resolution}
  {attr : Attribute}

/-- A settled attribute stays settled on a shorter path, with more bundles
entered. -/
theorem mono (h : registry.Settled path middle attr) (hpath : shorter ⊆ path)
    (hentered : ∀ digest ∈ middle.entered, digest ∈ final.entered) :
    registry.Settled shorter final attr where
  recognized := h.recognized
  entered digest href := by
    obtain ⟨hloaded, hmem, hoff⟩ := h.entered digest href
    exact ⟨hloaded, hentered digest hmem, fun hin => hoff (hpath hin)⟩

theorem of_primitive {kind : Primitive} (type : attr.type.base = .primitive kind) :
    registry.Settled path final attr where
  recognized raw heq := by simp [type] at heq
  entered digest href := by simp [AttributeType.reference?, type] at href

theorem of_reference {digest : String} {target : Bundle}
    (type : attr.type.base = .reference digest) (loaded : registry.find? digest = some target)
    (offPath : digest ∉ path) (hentered : digest ∈ final.entered) :
    registry.Settled path final attr where
  recognized raw heq := by simp [type] at heq
  entered other href := by
    rw [AttributeType.reference?_eq_some_iff, type, BaseType.reference.injEq] at href
    subst href
    exact ⟨⟨target, loaded⟩, hentered, offPath⟩

end Settled

/-! ## what a successful run keeps -/

namespace Run

variable {registry : Registry} {path : List String} {owner : String} {attrs : List Attribute}
  {state final : Resolution}

/-- A successful run settles the attributes it runs over. -/
theorem settled (run : registry.Run path owner attrs state final) (hok : final.failure = none) :
    ∀ attr ∈ attrs, registry.Settled path final attr := by
  induction run with
  | done => simp
  | primitive type _ ih => exact List.forall_mem_cons.mpr ⟨.of_primitive type, ih hok⟩
  | unsupported => simp [Resolution.fail] at hok
  | unresolved => simp [Resolution.fail] at hok
  | cyclic => simp [Resolution.fail] at hok
  | known type loaded offPath entered rest ih =>
      have hmem := rest.mem_entered entered
      exact List.forall_mem_cons.mpr ⟨.of_reference type loaded offPath hmem, ih hok⟩
  | stopped _ _ _ _ _ failed => exact absurd hok failed
  | entered type loaded offPath _ inner _ rest _ ih =>
      have hmem := rest.mem_entered (inner.mem_entered List.mem_cons_self)
      exact List.forall_mem_cons.mpr ⟨.of_reference type loaded offPath hmem, ih hok⟩

/-- The references of the owner are those of its attributes; a later
attribute takes the place of an earlier one of the same name. -/
theorem find?_owner (run : registry.Run path owner attrs state final) (hok : final.failure = none)
    (howner : owner ∈ state.entered) (name : String) :
    final.references.find? owner name =
      (lastReference? attrs name).or (state.references.find? owner name) := by
  induction run with
  | done => rfl
  | primitive type _ ih =>
      rw [ih hok howner, lastReference?, AttributeType.reference?_of_primitive type, ite_self,
        Option.or_none]
  | unsupported => simp [Resolution.fail] at hok
  | unresolved => simp [Resolution.fail] at hok
  | cyclic => simp [Resolution.fail] at hok
  | known type _ _ _ _ ih =>
      rw [ih hok howner, lastReference?, Option.or_assoc,
        AttributeType.reference?_eq_some_iff.mpr type]
      congr 1
      simp only [Resolution.record, References.find?_insert, true_and]
      grind
  | stopped _ _ _ _ _ failed => exact absurd hok failed
  | @entered path owner attr attrs state middle final digest target type _ _ fresh inner
      succeeded _ _ ih =>
      have hne : owner ≠ digest := fun heq => fresh (heq ▸ howner)
      rw [ih hok (inner.mem_entered (List.mem_cons_of_mem digest howner)), lastReference?,
        Option.or_assoc, AttributeType.reference?_eq_some_iff.mpr type,
        inner.find?_of_ne (List.mem_cons_of_mem digest howner) hne]
      congr 1
      simp only [Resolution.enter, Resolution.record, References.find?_insert, true_and]
      grind

/-- A successful run settles the bundles it enters, and records the
references of each. -/
theorem settled_bundle (run : registry.Run path owner attrs state final)
    (hok : final.failure = none) (howner : owner ∈ state.entered)
    (hfresh : ∀ other ∉ state.entered, ∀ name, state.references.find? other name = none) :
    ∀ digest ∈ final.entered, digest ∉ state.entered →
      ∃ bundle, registry.find? digest = some bundle ∧
        (∀ attr ∈ bundle.attributes, registry.Settled path final attr) ∧
        ∀ name, final.references.find? digest name = lastReference? bundle.attributes name := by
  induction run with
  | done => exact fun digest hmem hnot => absurd hmem hnot
  | primitive _ _ ih => exact ih hok howner hfresh
  | unsupported => simp [Resolution.fail] at hok
  | unresolved => simp [Resolution.fail] at hok
  | cyclic => simp [Resolution.fail] at hok
  | known _ _ _ _ _ ih =>
      refine ih hok howner fun other hother name => ?_
      have hne : ¬ other = _ := fun heq => hother (heq ▸ howner)
      simpa [Resolution.record, References.find?_insert, hne] using hfresh other hother name
  | stopped _ _ _ _ _ failed => exact absurd hok failed
  | @entered path owner attr attrs state middle final digest target type loaded _ fresh inner
      succeeded rest ihInner ihRest =>
      have hrecorded : ∀ other ∉ state.entered, ∀ name,
          (state.record owner attr.name digest).references.find? other name = none := by
        intro other hother name
        have hne : other ≠ owner := fun heq => hother (heq ▸ howner)
        simpa [Resolution.record, References.find?_insert, hne] using hfresh other hother name
      have hinner : ∀ other ∉ digest :: state.entered, ∀ name,
          (state.record owner attr.name digest).references.find? other name = none :=
        fun other hother => hrecorded other fun h => hother (List.mem_cons_of_mem digest h)
      have howner' := inner.mem_entered (List.mem_cons_of_mem digest howner)
      have hmiddle : ∀ other ∉ middle.entered, ∀ name,
          middle.references.find? other name = none := by
        intro other hother name
        rw [inner.find?_of_not_mem List.mem_cons_self hother]
        exact hinner other (fun h => hother (inner.mem_entered h)) name
      -- A bundle is entered within the reference, or after it; the references of
      -- one entered within it are final once the reference has been followed.
      intro found hmem hnot
      by_cases hin : found ∈ middle.entered
      · have hfound : found ≠ owner := fun heq => hnot (heq ▸ howner)
        have hsame : ∀ name, final.references.find? found name =
            middle.references.find? found name := fun _ => rest.find?_of_ne hin hfound
        have hsub : path ⊆ path ++ [digest] := List.subset_append_left path [digest]
        by_cases hdigest : found = digest
        · subst hdigest
          refine ⟨target, loaded, fun attr hattr => ?_, fun name => ?_⟩
          · exact (inner.settled succeeded attr hattr).mono hsub fun _ => rest.mem_entered
          · rw [hsame, inner.find?_owner succeeded List.mem_cons_self,
              Resolution.enter, hrecorded found fresh, Option.or_none]
        · obtain ⟨bundle, hbundle, hsettled, hrefs⟩ :=
            ihInner succeeded List.mem_cons_self hinner found hin
              fun h => (List.mem_cons.mp h).elim hdigest hnot
          refine ⟨bundle, hbundle, fun attr hattr => ?_, fun name => ?_⟩
          · exact (hsettled attr hattr).mono hsub fun _ => rest.mem_entered
          · rw [hsame, hrefs]
      · exact ihRest hok howner' hmiddle found hmem hin

/-- References of a bundle that a successful run left behind cannot be
followed forever. -/
theorem acc (run : registry.Run path owner attrs state final) (hok : final.failure = none)
    (hstate : ∀ digest ∈ state.entered, digest ∉ path → Acc registry.ReferredBy digest) :
    ∀ digest ∈ final.entered, digest ∉ path → Acc registry.ReferredBy digest := by
  induction run with
  | done => exact hstate
  | primitive _ _ ih => exact ih hok hstate
  | unsupported => simp [Resolution.fail] at hok
  | unresolved => simp [Resolution.fail] at hok
  | cyclic => simp [Resolution.fail] at hok
  | known _ _ _ _ _ ih => exact ih hok hstate
  | stopped _ _ _ _ _ failed => exact absurd hok failed
  | @entered path owner attr attrs state middle final digest target type loaded _ _ inner
      succeeded rest ihInner ihRest =>
      have hmiddle : ∀ other ∈ middle.entered, other ∉ path ++ [digest] →
          Acc registry.ReferredBy other := by
        refine ihInner succeeded fun other hmem hoff => ?_
        rw [List.mem_append, List.mem_singleton, not_or] at hoff
        exact hstate other ((List.mem_cons.mp hmem).resolve_left hoff.2) hoff.1
      -- everything that the bundle left last refers to was left before it
      have hdigest : Acc registry.ReferredBy digest := by
        refine Acc.intro digest fun other hrefers => ?_
        obtain ⟨bundle, hbundle, attr', hattr', href⟩ := hrefers
        obtain rfl : target = bundle := Option.some.inj (loaded.symm.trans hbundle)
        obtain ⟨-, hmem, hoff⟩ := (inner.settled succeeded attr' hattr').entered other href
        exact hmiddle other hmem hoff
      refine ihRest hok fun other hmem hoff => ?_
      by_cases heq : other = digest
      · exact heq ▸ hdigest
      · exact hmiddle other hmem (by simp [hoff, heq])

/-- A run over attributes of a bundle that a resolvable base reaches does
not stop. -/
theorem succeeds {base bundle : Bundle} (run : registry.Run path owner attrs state final)
    (hbase : registry.Resolvable base) (hbundle : registry.Reaches base bundle)
    (howner : bundle.digest = owner) (hattrs : attrs ⊆ bundle.attributes)
    (hpath : ∀ digest ∈ path, Relation.ReflTransGen (registry.Refers base) digest owner)
    (hok : state.failure = none) : final.failure = none := by
  induction run generalizing bundle with
  | done => exact hok
  | primitive _ _ ih => exact ih hbundle howner (List.subset_of_cons_subset hattrs) hpath hok
  | unsupported type =>
      exact absurd type (hbase.recognized bundle hbundle _ (hattrs List.mem_cons_self) _)
  | unresolved type missing =>
      obtain ⟨target, hloaded⟩ := hbase.loaded bundle hbundle _ ⟨_, hattrs List.mem_cons_self,
        AttributeType.reference?_eq_some_iff.mpr type⟩
      rw [missing] at hloaded
      contradiction
  | cyclic type _ onPath =>
      have hrefers : registry.Refers base _ _ := ⟨bundle, hbundle, howner, _,
        hattrs List.mem_cons_self, AttributeType.reference?_eq_some_iff.mpr type⟩
      -- A way back onto the path would close a cycle with the way from there.
      exact absurd (Relation.TransGen.tail' (hpath _ onPath) hrefers) (hbase.acyclic _)
  | known _ _ _ _ _ ih => exact ih hbundle howner (List.subset_of_cons_subset hattrs) hpath hok
  | stopped type loaded _ _ _ failed ih =>
      have href := AttributeType.reference?_eq_some_iff.mpr type
      have htarget := hbundle.step ⟨_, hattrs List.mem_cons_self, href⟩ loaded
      have hrefers : registry.Refers base _ _ := ⟨bundle, hbundle, howner, _,
        hattrs List.mem_cons_self, href⟩
      refine absurd (ih htarget (digest_of_find? loaded) (List.Subset.refl _) ?_ hok) failed
      intro digest hmem
      rcases List.mem_append.mp hmem with hmem | hmem
      · exact (hpath digest hmem).tail hrefers
      · rw [List.mem_singleton.mp hmem]
  | entered _ _ _ _ _ succeeded _ _ ih =>
      exact ih hbundle howner (List.subset_of_cons_subset hattrs) hpath succeeded

end Run

/-! ## resolving a base -/

section Base

variable {registry : Registry} {base bundle : Bundle}

/-- The resolution of a base is a run over its attributes. -/
theorem resolution_run (registry : Registry) (base : Bundle) :
    registry.Run [base.digest] base.digest base.attributes ⟨.empty, [base.digest], none⟩
      (registry.resolution base) :=
  resolveAttributes_run base.attributes _

theorem resolve_eq_ok_iff {references : References} :
    registry.resolve base = .ok references ↔
      (registry.resolution base).failure = none ∧
        (registry.resolution base).references = references := by
  unfold resolve
  cases (registry.resolution base).failure <;> simp

/-- A bundle that a resolved base reaches is the base or loaded under
another digest; it was entered and its attributes are settled. -/
theorem settled_of_reaches (hok : (registry.resolution base).failure = none)
    (hbundle : registry.Reaches base bundle) :
    (bundle = base ∨
      bundle.digest ≠ base.digest ∧ registry.find? bundle.digest = some bundle) ∧
    bundle.digest ∈ (registry.resolution base).entered ∧
    ∀ attr ∈ bundle.attributes,
      registry.Settled [base.digest] (registry.resolution base) attr := by
  have run := resolution_run registry base
  induction hbundle with
  | base => exact ⟨.inl rfl, run.mem_entered List.mem_cons_self, run.settled hok⟩
  | @step owner target digest _ refers loaded ih =>
      obtain ⟨attr, hattr, href⟩ := refers
      obtain ⟨-, hmem, hoff⟩ := (ih.2.2 attr hattr).entered digest href
      obtain ⟨found, hfound, hsettled, -⟩ := run.settled_bundle hok List.mem_cons_self
        (fun other _ name => References.find?_empty other name) digest hmem hoff
      obtain rfl : target = found := Option.some.inj (loaded.symm.trans hfound)
      have hdigest := digest_of_find? loaded
      have hne : target.digest ≠ base.digest := by simpa [hdigest] using hoff
      exact ⟨.inr ⟨hne, hdigest ▸ loaded⟩, hdigest ▸ hmem, hsettled⟩

/-- The entered digests are those of the reached bundles. -/
theorem mem_entered_iff (hok : (registry.resolution base).failure = none) {digest : String} :
    digest ∈ (registry.resolution base).entered ↔
      ∃ bundle, registry.Reaches base bundle ∧ bundle.digest = digest := by
  constructor
  · refine (resolution_run registry base).reached .base (List.Subset.refl _) ?_ digest
    intro other hmem
    exact ⟨base, .base, (List.mem_singleton.mp hmem).symm⟩
  · rintro ⟨bundle, hbundle, rfl⟩
    exact (settled_of_reaches hok hbundle).2.1

/-- A resolved base is resolvable. -/
theorem resolvable_of_resolution (hok : (registry.resolution base).failure = none) :
    registry.Resolvable base where
  loaded owner howner digest hrefers := by
    obtain ⟨attr, hattr, href⟩ := hrefers
    exact (((settled_of_reaches hok howner).2.2 attr hattr).entered digest href).1
  recognized owner howner attr hattr :=
    ((settled_of_reaches hok howner).2.2 attr hattr).recognized
  acyclic digest hcycle := by
    -- past the base the edges are references of loaded bundles, which end
    have hacc : ∀ source, Acc registry.ReferredBy source → source ≠ base.digest →
        Acc (Function.swap (registry.Refers base)) source := by
      intro source hsource
      induction hsource with
      | intro source _ ih =>
          refine fun hne => Acc.intro source fun target hrefers => ?_
          obtain ⟨owner, howner, rfl, hrefers⟩ := hrefers
          obtain ⟨attr, hattr, href⟩ := id hrefers
          have hsettled := settled_of_reaches hok howner
          have hfound := (hsettled.1.resolve_left fun heq => hne (heq ▸ rfl)).2
          refine ih target ⟨owner, hfound, hrefers⟩ ?_
          simpa using ((hsettled.2.2 attr hattr).entered target href).2.2
    have hedge : ∀ source target, registry.Refers base source target →
        Acc (Function.swap (registry.Refers base)) target := by
      rintro source target ⟨owner, howner, -, attr, hattr, href⟩
      obtain ⟨-, hmem, hoff⟩ :=
        ((settled_of_reaches hok howner).2.2 attr hattr).entered target href
      refine hacc target ?_ (by simpa using hoff)
      exact (resolution_run registry base).acc hok (fun _ hin hnot => absurd hin hnot)
        target hmem hoff
    obtain ⟨source, -, hlast⟩ := Relation.TransGen.tail'_iff.mp hcycle
    have hirrefl := not_transGen_of_acc (hedge source digest hlast)
    exact hirrefl (Relation.transGen_swap.mpr hcycle)

/-- A resolvable base is resolved. -/
theorem resolution_of_resolvable (h : registry.Resolvable base) :
    (registry.resolution base).failure = none := by
  refine (resolution_run registry base).succeeds h .base rfl (List.Subset.refl _) ?_ rfl
  intro digest hmem
  rw [List.mem_singleton.mp hmem]

/-- The references of a resolved base: a reached bundle's attribute refers
to what the last attribute of its name declares. -/
theorem find?_of_reaches (hok : (registry.resolution base).failure = none)
    (hbundle : registry.Reaches base bundle) (name : String) :
    (registry.resolution base).references.find? bundle.digest name =
      lastReference? bundle.attributes name := by
  have run := resolution_run registry base
  obtain ⟨rfl | ⟨hne, hfound⟩, hmem, -⟩ := settled_of_reaches hok hbundle
  · rw [run.find?_owner hok List.mem_cons_self, References.find?_empty, Option.or_none]
  · obtain ⟨found, hfound', -, hrefs⟩ := run.settled_bundle hok List.mem_cons_self
      (fun other _ name => References.find?_empty other name) bundle.digest hmem
      (by simpa using hne)
    obtain rfl : bundle = found := Option.some.inj (hfound.symm.trans hfound')
    exact hrefs name

/-- Nothing is recorded for a digest that is not reached. -/
theorem reaches_of_find? (hok : (registry.resolution base).failure = none)
    {owner name target : String}
    (h : (registry.resolution base).references.find? owner name = some target) :
    ∃ bundle, registry.Reaches base bundle ∧ bundle.digest = owner := by
  by_contra hnot
  have hmem : owner ∉ (registry.resolution base).entered :=
    fun hmem => hnot ((mem_entered_iff hok).mp hmem)
  rw [(resolution_run registry base).find?_of_not_mem List.mem_cons_self hmem,
    References.find?_empty] at h
  contradiction

/-- The entered digests are as many as the reached ones. -/
theorem length_entered (hok : (registry.resolution base).failure = none) :
    (registry.resolution base).entered.length =
      {digest | ∃ bundle, registry.Reaches base bundle ∧ bundle.digest = digest}.ncard := by
  have hnodup : (registry.resolution base).entered.Nodup :=
    (resolution_run registry base).nodup_entered (List.nodup_singleton base.digest)
  rw [← List.toFinset_card_of_nodup hnodup, ← Set.ncard_coe_finset]
  congr 1
  ext digest
  rw [Finset.mem_coe, List.mem_toFinset]
  exact mem_entered_iff hok

/-! ## the specification of resolution -/

/-- **Resolution accepts exactly the closed acyclic graphs.**  Of the bundles
of one digest the last one is loaded.  A base is resolved if and only if all
it reaches is loaded, of known types and without cycle; then a reference is
recorded exactly where a reached bundle declares one, each of them points at
a loaded bundle that is reached, and the entered bundles are as many as the
digests that are reached, the base's own among them. -/
theorem resolve_exact (base : Bundle) (dependencies : List Bundle) :
    let registry := ofList dependencies
    (∀ digest, registry.find? digest =
      dependencies.reverse.find? fun bundle => bundle.digest = digest) ∧
    ((∃ references, registry.resolve base = .ok references) ↔ registry.Resolvable base) ∧
    ∀ references, registry.resolve base = .ok references →
      (∀ owner name, (∃ target, references.find? owner name = some target) ↔
        ∃ bundle, registry.Reaches base bundle ∧ bundle.digest = owner ∧
          ∃ attr ∈ bundle.attributes, attr.name = name ∧
            ∃ digest, attr.type.reference? = some digest) ∧
      (∀ owner name target, references.find? owner name = some target →
        ∃ bundle, registry.find? target = some bundle ∧ registry.Reaches base bundle) ∧
      (registry.resolution base).entered.length =
        {digest | ∃ bundle, registry.Reaches base bundle ∧ bundle.digest = digest}.ncard := by
  intro registry
  refine ⟨find?_ofList dependencies, ⟨?_, ?_⟩, ?_⟩
  · rintro ⟨references, h⟩
    exact resolvable_of_resolution (resolve_eq_ok_iff.mp h).1
  · intro h
    exact ⟨_, resolve_eq_ok_iff.mpr ⟨resolution_of_resolvable h, rfl⟩⟩
  · intro references h
    obtain ⟨hok, rfl⟩ := resolve_eq_ok_iff.mp h
    -- A recorded reference is a declared one, since it was recorded for a reached
    -- bundle whose references are those of its attributes.
    have hdeclared : ∀ owner name target,
        (registry.resolution base).references.find? owner name = some target →
        ∃ bundle, registry.Reaches base bundle ∧ bundle.digest = owner ∧
          ∃ attr ∈ bundle.attributes, attr.name = name ∧ attr.type.reference? = some target := by
      intro owner name target hfind
      obtain ⟨bundle, hbundle, rfl⟩ := reaches_of_find? hok hfind
      rw [find?_of_reaches hok hbundle] at hfind
      exact ⟨bundle, hbundle, rfl, mem_of_lastReference? hfind⟩
    refine ⟨fun owner name => ⟨?_, ?_⟩, ?_, length_entered hok⟩
    · rintro ⟨target, hfind⟩
      obtain ⟨bundle, hbundle, hdigest, attr, hattr, hname, href⟩ := hdeclared _ _ _ hfind
      exact ⟨bundle, hbundle, hdigest, attr, hattr, hname, target, href⟩
    · rintro ⟨bundle, hbundle, rfl, attr, hattr, rfl, digest, href⟩
      rw [find?_of_reaches hok hbundle]
      exact Option.isSome_iff_exists.mp (isSome_lastReference? hattr href)
    · intro owner name target hfind
      obtain ⟨bundle, hbundle, -, attr, hattr, -, href⟩ := hdeclared _ _ _ hfind
      obtain ⟨found, hfound⟩ :=
        (resolvable_of_resolution hok).loaded bundle hbundle target ⟨attr, hattr, href⟩
      exact ⟨found, hfound, hbundle.step ⟨attr, hattr, href⟩ hfound⟩

/-- Two references to one bundle, which refers to a third: three digests are
reached, and the reference of the second bundle is recorded. -/
theorem resolve_exact_of_shared :
    let base : Bundle := ⟨"Eroot", [.bare "home" (.scalar (.reference "Eaddress")),
      .bare "work" (.scalar (.reference "Eaddress"))], .empty⟩
    let address : Bundle := ⟨"Eaddress", [.bare "place" (.array (.reference "Eplace"))], .empty⟩
    let place : Bundle := ⟨"Eplace", [.bare "height" (.scalar (.primitive .numeric))], .empty⟩
    let registry := ofList [place, address]
    ∃ references, registry.resolve base = .ok references ∧
      (∃ target, references.find? "Eaddress" "place" = some target) ∧
      {digest | ∃ bundle, registry.Reaches base bundle ∧ bundle.digest = digest}.ncard = 3 := by
  intro base address place registry
  have hsome : (registry.resolution base).failure.isNone = true := by decide +kernel
  have hok : registry.resolve base = .ok (registry.resolution base).references :=
    resolve_eq_ok_iff.mpr ⟨Option.isNone_iff_eq_none.mp hsome, rfl⟩
  obtain ⟨hdeclared, -, hlength⟩ := (resolve_exact base [place, address]).2.2 _ hok
  refine ⟨_, hok, ?_, ?_⟩
  · refine (hdeclared "Eaddress" "place").mpr ⟨address, ?_, rfl, _, List.mem_singleton_self _,
      rfl, "Eplace", rfl⟩
    exact Reaches.base.step ⟨_, List.mem_cons_self, rfl⟩ (show _ = some address by decide +kernel)
  · rw [← hlength]
    decide +kernel

end Base

end Registry

end FormCompiler
