import FormCompiler.Proofs.PairedCompilations

/-!
# FormCompiler.Proofs.UnreachedBundles

Which of the loaded bundles matter.  A resolution asks a registry for what
reached bundles refer to, and for nothing else, whether it succeeds, fails
or runs into a cycle (`Registry.Run.of_agreesFrom`); so do the lookups of a
walk.  Registries that agree on these digests lead to the same result
(`CompileRequest.compile_dependencies`), and so do, in particular, the same
bundles in another order and a bundle more to which nothing refers.
-/

namespace FormCompiler

namespace Registry

/-- Another registry has the same bundle, or none, for whatever a bundle
reached from the base refers to. -/
def AgreesFrom (registry : Registry) (base : Bundle) (registry' : Registry) : Prop :=
  ∀ owner, registry.Reaches base owner → ∀ digest, owner.RefersTo digest →
    registry'.find? digest = registry.find? digest

variable {registry registry' : Registry} {base : Bundle}

/-! ## the same resolution -/

namespace Run

variable {path : List String} {owner : String} {attrs : List Attribute}
  {state final final' : Resolution}

/-- A run over attributes of a reached bundle is a run in every registry
that agrees. -/
theorem of_agreesFrom (run : registry.Run path owner attrs state final)
    (agree : registry.AgreesFrom base registry') {bundle : Bundle}
    (howner : registry.Reaches base bundle) (hattrs : attrs ⊆ bundle.attributes) :
    registry'.Run path owner attrs state final := by
  induction run generalizing bundle with
  | done => exact .done
  | primitive type _ ih =>
      exact .primitive type (ih howner (List.subset_of_cons_subset hattrs))
  | unsupported type => exact .unsupported type
  | unresolved type missing =>
      have hsame := agree _ howner _ (.of_type (hattrs List.mem_cons_self) type)
      exact .unresolved type (hsame.trans missing)
  | cyclic type loaded onPath =>
      have hsame := agree _ howner _ (.of_type (hattrs List.mem_cons_self) type)
      exact .cyclic type (hsame.trans loaded) onPath
  | known type loaded offPath entered _ ih =>
      have hsame := agree _ howner _ (.of_type (hattrs List.mem_cons_self) type)
      exact .known type (hsame.trans loaded) offPath entered
        (ih howner (List.subset_of_cons_subset hattrs))
  | stopped type loaded offPath fresh _ failed ih =>
      have hrefers := Bundle.RefersTo.of_type (hattrs List.mem_cons_self) type
      have hinner := ih (howner.step hrefers loaded) (List.Subset.refl _)
      exact .stopped type ((agree _ howner _ hrefers).trans loaded) offPath fresh hinner failed
  | entered type loaded offPath fresh _ succeeded _ ihInner ihRest =>
      have hrefers := Bundle.RefersTo.of_type (hattrs List.mem_cons_self) type
      have hinner := ihInner (howner.step hrefers loaded) (List.Subset.refl _)
      exact .entered type ((agree _ howner _ hrefers).trans loaded) offPath fresh hinner succeeded
        (ihRest howner (List.subset_of_cons_subset hattrs))

/-- A run can only end in one way: at most one rule applies to the next
attribute, and it determines what the run goes on with. -/
theorem unique (run : registry.Run path owner attrs state final)
    (run' : registry.Run path owner attrs state final') : final = final' := by
  -- The rules of a run exclude each other, so the second run ends by the rule of
  -- the first one.
  induction run generalizing final' with
  | done =>
      cases run'
      rfl
  | primitive type _ ih =>
      cases run' with
      | primitive type' rest' => exact ih rest'
      | _ => simp_all
  | unsupported | unresolved | cyclic => cases run' <;> simp_all
  | known type _ _ _ _ ih =>
      cases run' with
      | known type' _ _ _ rest' =>
          obtain rfl := BaseType.reference.inj (type.symm.trans type')
          exact ih rest'
      | _ => simp_all
  | stopped type loaded _ _ _ failed ih =>
      cases run' with
      | stopped type' loaded' _ _ inner' _ =>
          obtain rfl := BaseType.reference.inj (type.symm.trans type')
          obtain rfl := Option.some.inj (loaded.symm.trans loaded')
          exact ih inner'
      | entered type' loaded' _ _ inner' succeeded' _ =>
          obtain rfl := BaseType.reference.inj (type.symm.trans type')
          obtain rfl := Option.some.inj (loaded.symm.trans loaded')
          exact absurd (ih inner' ▸ succeeded') failed
      | _ => simp_all
  | entered type loaded _ _ _ succeeded _ ihInner ihRest =>
      cases run' with
      | stopped type' loaded' _ _ inner' failed' =>
          obtain rfl := BaseType.reference.inj (type.symm.trans type')
          obtain rfl := Option.some.inj (loaded.symm.trans loaded')
          exact absurd (ihInner inner' ▸ succeeded) failed'
      | entered type' loaded' _ _ inner' _ rest' =>
          obtain rfl := BaseType.reference.inj (type.symm.trans type')
          obtain rfl := Option.some.inj (loaded.symm.trans loaded')
          obtain rfl := ihInner inner'
          exact ihRest rest'
      | _ => simp_all

end Run

/-- Registries that agree resolve the base alike, up to the error at which
they stop. -/
theorem AgreesFrom.resolution_eq (agree : registry.AgreesFrom base registry') :
    registry'.resolution base = registry.resolution base := by
  have run : registry.Run [base.digest] base.digest base.attributes
      ⟨.empty, [base.digest], none⟩ (registry.resolution base) := resolveAttributes_run _ _
  have run' : registry'.Run [base.digest] base.digest base.attributes
      ⟨.empty, [base.digest], none⟩ (registry'.resolution base) := resolveAttributes_run _ _
  exact run'.unique (run.of_agreesFrom agree .base (List.Subset.refl _))

/-! ## bundles that make no difference -/

/-- Only the base and loaded bundles are reached. -/
theorem eq_or_mem_of_reaches {bundles : List Bundle} {owner : Bundle}
    (h : (ofList bundles).Reaches base owner) : owner = base ∨ owner ∈ bundles := by
  cases h with
  | base => exact .inl rfl
  | step _ _ loaded =>
      rw [find?_ofList] at loaded
      exact .inr (List.mem_reverse.mp (List.mem_of_find?_eq_some loaded))

/-- Bundles with distinct digests are all found under their digests. -/
theorem find?_ofList_eq_some_iff {bundles : List Bundle} (h : (bundles.map (·.digest)).Nodup)
    {digest : String} {bundle : Bundle} :
    (ofList bundles).find? digest = some bundle ↔ bundle ∈ bundles ∧ bundle.digest = digest := by
  rw [find?_ofList]
  constructor
  · intro hfind
    have hdigest : bundle.digest = digest := by simpa using List.find?_some hfind
    exact ⟨List.mem_reverse.mp (List.mem_of_find?_eq_some hfind), hdigest⟩
  · rintro ⟨hmem, rfl⟩
    cases hfind : bundles.reverse.find? fun other => other.digest = bundle.digest with
    | none =>
        have hnot := List.find?_eq_none.mp hfind bundle (List.mem_reverse.mpr hmem)
        exact absurd (decide_eq_true rfl) hnot
    | some other =>
        have hother : other ∈ bundles := List.mem_reverse.mp (List.mem_of_find?_eq_some hfind)
        have hdigest : other.digest = bundle.digest := by simpa using List.find?_some hfind
        rw [List.inj_on_of_nodup_map h hother hmem hdigest]

/-- The order of bundles with different digests does not matter. -/
theorem find?_ofList_perm {bundles bundles' : List Bundle} (hperm : bundles'.Perm bundles)
    (h : (bundles.map (·.digest)).Nodup) (digest : String) :
    (ofList bundles').find? digest = (ofList bundles).find? digest := by
  have h' : (bundles'.map (·.digest)).Nodup := (hperm.map (·.digest)).nodup_iff.mpr h
  refine Option.ext fun bundle => ?_
  rw [find?_ofList_eq_some_iff h, find?_ofList_eq_some_iff h', hperm.mem_iff]

/-- A bundle is only found under its own digest. -/
theorem find?_ofList_insert {first second : List Bundle} {bundle : Bundle} {digest : String}
    (h : digest ≠ bundle.digest) :
    (ofList (first ++ bundle :: second)).find? digest =
      (ofList (first ++ second)).find? digest := by
  simp only [find?_ofList, List.reverse_append, List.reverse_cons, List.find?_append,
    List.find?_singleton]
  simp [Ne.symm h]

end Registry

namespace CompileRequest

variable (request : CompileRequest) (options : CompileOptions) {dependencies : List Bundle}

/-- Walkers over registries that agree on what is reached cannot be told apart
there. -/
theorem indistinct_of_agreesFrom
    (agree : (Registry.ofList request.dependencies).AgreesFrom request.bundle
      (.ofList dependencies))
    (hok : ((Registry.ofList request.dependencies).resolution request.bundle).failure = none) :
    (request.resolvedWalker options).Indistinct .full Eq
      ((Registry.ofList request.dependencies).Reaches request.bundle)
      ({ request with dependencies }.resolvedWalker options) := by
  have hresolve : (request.resolvedWalker options).registry.resolve request.bundle =
      .ok (request.resolvedWalker options).references := Registry.resolve_eq_ok_iff.mpr ⟨hok, rfl⟩
  -- the references are the same, and those of a reached bundle name digests
  -- on which the registries agree
  have hdependency : ∀ {owner},
      (Registry.ofList request.dependencies).Reaches request.bundle owner → ∀ name,
      (request.resolvedWalker options).dependency? owner name =
        ({ request with dependencies }.resolvedWalker options).dependency? owner name := by
    intro owner howner name
    simp only [Walker.dependency?, resolvedWalker, walker, agree.resolution_eq]
    cases hlast : References.find? _ owner.digest name with
    | none => rfl
    | some digest =>
        rw [Registry.find?_of_reaches hok howner] at hlast
        obtain ⟨attr, hattr, -, href⟩ := mem_of_lastReference? hlast
        exact (agree owner howner digest ⟨attr, hattr, href⟩).symm
  exact
    { Walker.titledAlike_eq rfl with
      interaction := rfl
      findPage? := fun _ => rfl
      dependency? := hdependency
      held := fun howner => Walker.reaches_of_dependency? hresolve howner
      conditionals := fun _ => rfl
      readonly := fun _ => rfl
      now := fun _ => rfl }

/-- Registries that agree on what is reached compile alike. -/
theorem compile_of_agreesFrom
    (agree : (Registry.ofList request.dependencies).AgreesFrom request.bundle
      (.ofList dependencies)) :
    { request with dependencies }.compile options = request.compile options := by
  have hsame : SameResult .full Eq (request.compile options)
      ({ request with dependencies }.compile options) := by
    refine Paired.sameResult ⟨rfl, rfl, rfl, ?_, fun hok => ?_, rfl⟩
    · exact congrArg Resolution.failure agree.resolution_eq.symm
    · exact ⟨_, .base, request.indistinct_of_agreesFrom options agree hok⟩
  exact hsame.eq.symm

/-- Only those of the loaded bundles matter to which a reached bundle refers:
registries that agree on them lead to the same result.  So the order of
bundles with different digests does not matter, nor does a bundle more, as
long as no reached bundle refers to its digest. -/
theorem compile_dependencies :
    (∀ dependencies, (Registry.ofList request.dependencies).AgreesFrom request.bundle
        (.ofList dependencies) →
      { request with dependencies }.compile options = request.compile options) ∧
    (∀ dependencies, dependencies.Perm request.dependencies →
      (request.dependencies.map (·.digest)).Nodup →
      { request with dependencies }.compile options = request.compile options) ∧
    ∀ first bundle second, request.dependencies = first ++ second →
      (∀ owner, (Registry.ofList request.dependencies).Reaches request.bundle owner →
        ¬ owner.RefersTo bundle.digest) →
      { request with dependencies := first ++ bundle :: second }.compile options =
        request.compile options := by
  refine ⟨fun dependencies agree => request.compile_of_agreesFrom options agree,
    fun dependencies hperm hnodup => ?_, fun first bundle second hsplit hunreached => ?_⟩
  · exact request.compile_of_agreesFrom options fun owner _ digest _ =>
      Registry.find?_ofList_perm hperm hnodup digest
  · refine request.compile_of_agreesFrom options fun owner howner digest hrefers => ?_
    rw [hsplit]
    exact Registry.find?_ofList_insert fun heq => hunreached owner howner (heq ▸ hrefers)

/-- A base that reaches two bundles, one behind the other: they may be loaded
the other way round, with a bundle between them whose own reference is not
loaded, and behind an outdated version of one of them. -/
theorem compile_dependencies_of_stray :
    let address : Bundle := ⟨"Eaddress", [.bare "place" (.scalar (.reference "Eplace"))], .empty⟩
    let place : Bundle := ⟨"Eplace", [.bare "city" (.scalar (.primitive .text))], .empty⟩
    let stray : Bundle := ⟨"Estray", [.bare "other" (.scalar (.reference "Enowhere"))], .empty⟩
    let outdated : Bundle := ⟨"Eplace", [], .empty⟩
    let request : CompileRequest :=
      { bundle := ⟨"Eperson", [.bare "home" (.scalar (.reference "Eaddress"))], .empty⟩
        dependencies := [address, place]
        presentation :=
          { bundleDigest := "Eperson", digest := none, languages := ["eng"]
            pages := [⟨none, none, some "main", [.page ⟨none, some "home", none,
              [.page ⟨none, some "place", none, [.field "city"]⟩]⟩]⟩]
            pageOrder := ["main"], pageLabels := .empty, interactions := [] }
        conditionals := .empty
        readonly := [] }
    ∃ compiled, request.compile default = .ok compiled ∧
      { request with dependencies := [place, address] }.compile default = .ok compiled ∧
      { request with dependencies := [place, stray, address] }.compile default = .ok compiled ∧
      { request with dependencies := [outdated, address, place] }.compile default =
        .ok compiled := by
  intro address place stray outdated request
  have hok : (request.compile default).isOk = true := by decide +kernel
  obtain ⟨compiled, hcompile⟩ := exists_compile_eq_ok hok
  let swapped : CompileRequest := { request with dependencies := [place, address] }
  have hswapped : swapped.compile default = .ok compiled :=
    ((request.compile_dependencies default).2.1 [place, address] (.swap _ _ _) (by decide)).trans
      hcompile
  refine ⟨compiled, hcompile, hswapped, ?_, ?_⟩
  · refine ((swapped.compile_dependencies default).2.2 [place] stray [address] rfl
      fun owner howner => ?_).trans hswapped
    have hunreached : ∀ owner ∈ [request.bundle, place, address], ¬ owner.RefersTo "Estray" := by
      decide
    exact hunreached owner (List.mem_cons.mpr (Registry.eq_or_mem_of_reaches howner))
  · refine ((request.compile_dependencies default).1 _ fun owner _ digest _ => ?_).trans hcompile
    by_cases hplace : digest = "Eplace"
    · subst hplace
      decide +kernel
    · show (Registry.ofList ([] ++ outdated :: [address, place])).find? digest = _
      exact Registry.find?_ofList_insert hplace

end CompileRequest

end FormCompiler
