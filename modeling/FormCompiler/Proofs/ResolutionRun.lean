import FormCompiler.Proofs.ReferenceGraph

/-!
# FormCompiler.Proofs.ResolutionRun

The resolution of attributes as a derivation.  `Registry.Run` has one rule
for each way in which an attribute can be dealt with, so what a resolution
keeps is proved by induction on its derivation; `resolveAttributes_run` says
that every resolution has one.

The facts that hold of every run, whether it stops or not, follow:

* what was entered stays entered (`Run.mem_entered`), and nothing is entered
  twice (`Run.nodup_entered`);
* references are only recorded for the owner and for bundles that the run
  enters (`Run.find?_of_ne`, `Run.find?_of_not_mem`);
* only reached bundles are entered (`Run.reached`);
* what stops a run is the type of an attribute, a missing bundle or a cycle
  (`Run.failed`).
-/

namespace FormCompiler

namespace Registry

/-- The run over attributes of the bundle `owner`, the last one on `path`,
from one state to another. -/
inductive Run (registry : Registry) :
    List String → String → List Attribute → Resolution → Resolution → Prop
  | done {path owner state} : Run registry path owner [] state state
  /-- A primitive type refers to nothing. -/
  | primitive {path owner attr attrs state final kind}
      (type : attr.type.base = .primitive kind)
      (rest : Run registry path owner attrs state final) :
      Run registry path owner (attr :: attrs) state final
  /-- An unknown type stops the run. -/
  | unsupported {path owner attr attrs state raw} (type : attr.type.base = .unrecognized raw) :
      Run registry path owner (attr :: attrs) state
        (state.fail (.unsupportedType attr.name attr.type))
  /-- A reference that is not loaded stops the run. -/
  | unresolved {path owner attr attrs state digest} (type : attr.type.base = .reference digest)
      (missing : registry.find? digest = none) :
      Run registry path owner (attr :: attrs) state
        (state.fail (.unresolvedReference attr.name digest))
  /-- A reference back onto the path stops the run. -/
  | cyclic {path owner attr attrs state digest target}
      (type : attr.type.base = .reference digest) (loaded : registry.find? digest = some target)
      (onPath : digest ∈ path) :
      Run registry path owner (attr :: attrs) state
        ((state.record owner attr.name digest).fail (.cyclicReference (path ++ [digest])))
  /-- A bundle that was entered before is passed over. -/
  | known {path owner attr attrs state final digest target}
      (type : attr.type.base = .reference digest) (loaded : registry.find? digest = some target)
      (offPath : digest ∉ path) (entered : digest ∈ state.entered)
      (rest : Run registry path owner attrs (state.record owner attr.name digest) final) :
      Run registry path owner (attr :: attrs) state final
  /-- A bundle is entered and stops the run. -/
  | stopped {path owner attr attrs state final digest target}
      (type : attr.type.base = .reference digest) (loaded : registry.find? digest = some target)
      (offPath : digest ∉ path) (fresh : digest ∉ state.entered)
      (inner : Run registry (path ++ [digest]) digest target.attributes
        ((state.record owner attr.name digest).enter digest) final)
      (failed : final.failure ≠ none) :
      Run registry path owner (attr :: attrs) state final
  /-- A bundle is entered, and the run goes on behind it. -/
  | entered {path owner attr attrs state middle final digest target}
      (type : attr.type.base = .reference digest) (loaded : registry.find? digest = some target)
      (offPath : digest ∉ path) (fresh : digest ∉ state.entered)
      (inner : Run registry (path ++ [digest]) digest target.attributes
        ((state.record owner attr.name digest).enter digest) middle)
      (succeeded : middle.failure = none)
      (rest : Run registry path owner attrs middle final) :
      Run registry path owner (attr :: attrs) state final

/-! ## every resolution is a run -/

section Traversal

variable {registry : Registry} {path : List String} {owner : String}

/-- Attributes are resolved by a run if the bundles that they enter are. -/
theorem resolveEach_run
    {visit : (digest : String) → (target : Bundle) → registry.find? digest = some target →
      ¬ digest ∈ path → Resolution → Resolution}
    (hvisit : ∀ digest target loaded offPath state, registry.Run (path ++ [digest]) digest
      target.attributes state (visit digest target loaded offPath state))
    (attrs : List Attribute) (state : Resolution) :
    registry.Run path owner attrs state (registry.resolveEach path owner visit attrs state) := by
  induction attrs generalizing state with
  | nil => exact .done
  | cons attr attrs ih =>
      unfold resolveEach
      split
      · next kind htype => exact .primitive htype (ih state)
      · next raw htype => exact .unsupported htype
      · next digest htype =>
          split
          · next hmissing => exact .unresolved htype hmissing
          · next target hloaded =>
              dsimp only
              split
              · next hpath => exact .cyclic htype hloaded hpath
              · next hpath =>
                  split
                  · next hentered => exact .known htype hloaded hpath hentered (ih _)
                  · next hfresh =>
                      have hinner := hvisit digest target hloaded hpath
                        ((state.record owner attr.name digest).enter digest)
                      split
                      · next hfailed =>
                          exact .stopped htype hloaded hpath hfresh hinner
                            (Option.isSome_iff_ne_none.mp hfailed)
                      · next hok =>
                          exact .entered htype hloaded hpath hfresh hinner
                            (Option.not_isSome_iff_eq_none.mp hok) (ih _)

/-- Every resolution of attributes is a run. -/
theorem resolveAttributes_run (attrs : List Attribute) (state : Resolution) :
    registry.Run path owner attrs state (registry.resolveAttributes path owner attrs state) := by
  -- a bundle that is entered lies off the path, which shrinks what is left
  induction hmeasure : registry.offPath path using Nat.strongRecOn
    generalizing path owner attrs state with
  | ind measure ih =>
      rw [resolveAttributes]
      apply resolveEach_run
      intro digest target loaded offPath inner
      have hlt := offPath_lt loaded offPath
      exact ih _ (hmeasure ▸ hlt) _ _ rfl

end Traversal

/-! ## what every run keeps -/

namespace Run

variable {registry : Registry} {path : List String} {owner : String} {attrs : List Attribute}
  {state final : Resolution}

theorem mem_entered (run : registry.Run path owner attrs state final) {digest : String}
    (h : digest ∈ state.entered) : digest ∈ final.entered := by
  induction run with
  | done => exact h
  | primitive _ _ ih => exact ih h
  | unsupported => exact h
  | unresolved => exact h
  | cyclic => exact h
  | known _ _ _ _ _ ih => exact ih h
  | stopped _ _ _ _ _ _ ih => exact ih (List.mem_cons_of_mem _ h)
  | entered _ _ _ _ _ _ _ ihInner ihRest => exact ihRest (ihInner (List.mem_cons_of_mem _ h))

theorem nodup_entered (run : registry.Run path owner attrs state final)
    (h : state.entered.Nodup) : final.entered.Nodup := by
  induction run with
  | done => exact h
  | primitive _ _ ih => exact ih h
  | unsupported => exact h
  | unresolved => exact h
  | cyclic => exact h
  | known _ _ _ _ _ ih => exact ih h
  | stopped _ _ _ fresh _ _ ih => exact ih (List.nodup_cons.mpr ⟨fresh, h⟩)
  | entered _ _ _ fresh _ _ _ ihInner ihRest =>
      exact ihRest (ihInner (List.nodup_cons.mpr ⟨fresh, h⟩))

/-- The references of another bundle that was entered before stay as they are. -/
theorem find?_of_ne (run : registry.Run path owner attrs state final) {other name : String}
    (hentered : other ∈ state.entered) (hne : other ≠ owner) :
    final.references.find? other name = state.references.find? other name := by
  induction run with
  | done => rfl
  | primitive _ _ ih => exact ih hentered hne
  | unsupported => rfl
  | unresolved => rfl
  | cyclic => simp [Resolution.fail, Resolution.record, References.find?_insert, hne]
  | known _ _ _ _ _ ih =>
      rw [ih hentered hne]
      simp [Resolution.record, References.find?_insert, hne]
  | stopped _ _ _ fresh _ _ ih =>
      rw [ih (List.mem_cons_of_mem _ hentered) (fun heq => fresh (heq ▸ hentered))]
      simp [Resolution.enter, Resolution.record, References.find?_insert, hne]
  | entered _ _ _ fresh inner _ _ ihInner ihRest =>
      rw [ihRest (inner.mem_entered (List.mem_cons_of_mem _ hentered)) hne,
        ihInner (List.mem_cons_of_mem _ hentered) (fun heq => fresh (heq ▸ hentered))]
      simp [Resolution.enter, Resolution.record, References.find?_insert, hne]

/-- Nothing is recorded for a bundle that the run does not enter. -/
theorem find?_of_not_mem (run : registry.Run path owner attrs state final) {other name : String}
    (howner : owner ∈ state.entered) (hother : other ∉ final.entered) :
    final.references.find? other name = state.references.find? other name := by
  induction run with
  | done => rfl
  | primitive _ _ ih => exact ih howner hother
  | unsupported => rfl
  | unresolved => rfl
  | cyclic =>
      have hne : ¬ other = _ := fun heq => hother (heq ▸ howner)
      simp [Resolution.fail, Resolution.record, References.find?_insert, hne]
  | known _ _ _ _ rest ih =>
      have hne : ¬ other = _ := fun heq => hother (heq ▸ rest.mem_entered howner)
      rw [ih howner hother]
      simp [Resolution.record, References.find?_insert, hne]
  | stopped _ _ _ _ inner _ ih =>
      have hne : ¬ other = _ := fun heq =>
        hother (heq ▸ inner.mem_entered (List.mem_cons_of_mem _ howner))
      rw [ih List.mem_cons_self hother]
      simp [Resolution.enter, Resolution.record, References.find?_insert, hne]
  | entered _ _ _ _ inner _ rest ihInner ihRest =>
      have howner' := inner.mem_entered (List.mem_cons_of_mem _ howner)
      have hne : ¬ other = _ := fun heq => hother (heq ▸ rest.mem_entered howner')
      rw [ihRest howner' hother,
        ihInner List.mem_cons_self (fun hmem => hother (rest.mem_entered hmem))]
      simp [Resolution.enter, Resolution.record, References.find?_insert, hne]

/-- A run over attributes of a reached bundle enters reached bundles only. -/
theorem reached {base bundle : Bundle} (run : registry.Run path owner attrs state final)
    (howner : registry.Reaches base bundle) (hattrs : attrs ⊆ bundle.attributes)
    (hstate : ∀ digest ∈ state.entered, ∃ b, registry.Reaches base b ∧ b.digest = digest) :
    ∀ digest ∈ final.entered, ∃ b, registry.Reaches base b ∧ b.digest = digest := by
  induction run generalizing bundle with
  | done => exact hstate
  | primitive _ _ ih => exact ih howner (List.subset_of_cons_subset hattrs) hstate
  | unsupported => exact hstate
  | unresolved => exact hstate
  | cyclic => exact hstate
  | known _ _ _ _ _ ih => exact ih howner (List.subset_of_cons_subset hattrs) hstate
  | stopped type loaded _ _ _ _ ih =>
      have htarget := howner.step (.of_type (hattrs List.mem_cons_self) type) loaded
      refine ih htarget (List.Subset.refl _) fun digest hmem => ?_
      rcases List.mem_cons.mp hmem with rfl | hmem
      · exact ⟨_, htarget, digest_of_find? loaded⟩
      · exact hstate digest hmem
  | entered type loaded _ _ _ _ _ ihInner ihRest =>
      have htarget := howner.step (.of_type (hattrs List.mem_cons_self) type) loaded
      refine ihRest howner (List.subset_of_cons_subset hattrs)
        (ihInner htarget (List.Subset.refl _) fun digest hmem => ?_)
      rcases List.mem_cons.mp hmem with rfl | hmem
      · exact ⟨_, htarget, digest_of_find? loaded⟩
      · exact hstate digest hmem

/-- What stops a run is an unknown type, a reference that is not loaded or a
cycle. -/
theorem failed {E : CompileError → Prop} (run : registry.Run path owner attrs state final)
    (hunsupported : ∀ name type, E (.unsupportedType name type))
    (hunresolved : ∀ name digest, E (.unresolvedReference name digest))
    (hcyclic : ∀ cycle, E (.cyclicReference cycle))
    (hstate : ∀ error, state.failure = some error → E error) :
    ∀ error, final.failure = some error → E error := by
  induction run with
  | done => exact hstate
  | primitive _ _ ih => exact ih hstate
  | unsupported =>
      rintro _ ⟨⟩
      exact hunsupported _ _
  | unresolved =>
      rintro _ ⟨⟩
      exact hunresolved _ _
  | cyclic =>
      rintro _ ⟨⟩
      exact hcyclic _
  | known _ _ _ _ _ ih => exact ih hstate
  | stopped _ _ _ _ _ _ ih => exact ih hstate
  | entered _ _ _ _ _ _ _ ihInner ihRest => exact ihRest (ihInner hstate)

end Run

end Registry

end FormCompiler
