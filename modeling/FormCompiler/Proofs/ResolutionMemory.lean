import FormCompiler.Proofs.PlainResolution

/-!
# FormCompiler.Proofs.ResolutionMemory

Resolution passes over a bundle that was entered before.  This changes
nothing: without memory it ends with the same references, or with the same
error (`Registry.resolve_eq_plainResolve`).

The invariant is `Registry.Orderly`.  What was entered and is not on the
active path was left behind for good; it leads only to what was left behind
(`Registry.Orderly.leads`), and so never back onto the path, whichever way it
is met again.
-/

namespace FormCompiler

namespace Resolution

/-! ## how a resolution ends -/

/-- The references found, or what stopped the resolution. -/
def outcome (state : Resolution) : Except CompileError References :=
  match state.failure with
  | some error => .error error
  | none => .ok state.references

theorem outcome_of_eq_none {state : Resolution} (h : state.failure = none) :
    state.outcome = .ok state.references := by
  rw [outcome, h]

theorem outcome_of_eq_some {state : Resolution} {error : CompileError}
    (h : state.failure = some error) : state.outcome = .error error := by
  rw [outcome, h]

end Resolution

namespace Registry

/-! ## what resolution leaves behind -/

/-- A state in which the bundle `owner`, the last one on `path`, is being
resolved.  Whatever was entered and left again is settled, its references are
recorded, and they lead to no cycle. -/
structure Orderly (registry : Registry) (path : List String) (owner : String)
    (state : Resolution) : Prop where
  onPath : owner ∈ path
  entered : owner ∈ state.entered
  filled : state.references.Filled
  /-- Nothing is recorded for a bundle before it is entered. -/
  fresh : ∀ other ∉ state.entered, ∀ name, state.references.find? other name = none
  left : ∀ digest ∈ state.entered, digest ∉ path → ∃ bundle, registry.find? digest = some bundle ∧
    (∀ attr ∈ bundle.attributes, registry.Settled path state attr) ∧
    ∀ name, state.references.find? digest name = lastReference? bundle.attributes name
  acc : ∀ digest ∈ state.entered, digest ∉ path → Acc registry.ReferredBy digest

/-- A run keeps an owner of references for each that it records. -/
theorem Run.filled {registry : Registry} {path : List String} {owner : String}
    {attrs : List Attribute} {state final : Resolution}
    (run : registry.Run path owner attrs state final) (h : state.references.Filled) :
    final.references.Filled := by
  induction run with
  | done | unsupported | unresolved => exact h
  | primitive _ _ ih => exact ih h
  | cyclic => exact h.insert
  | known _ _ _ _ _ ih => exact ih h.insert
  | stopped _ _ _ _ _ _ ih => exact ih h.insert
  | entered _ _ _ _ _ _ _ ihInner ihRest => exact ihRest (ihInner h.insert)

namespace Orderly

variable {registry : Registry} {path : List String} {owner digest : String}
  {attrs : List Attribute} {state final : Resolution}

/-! ### steps of a run -/

/-- A reference of the owner is recorded before the owner is left, so it
disturbs nothing. -/
theorem record (h : registry.Orderly path owner state) (name digest : String) :
    registry.Orderly path owner (state.record owner name digest) where
  onPath := h.onPath
  entered := h.entered
  filled := h.filled.insert
  fresh other hother n := by
    have hne : other ≠ owner := fun heq => hother (heq ▸ h.entered)
    exact (References.agreesOff_insert other hne n).trans (h.fresh other hother n)
  left other hmem hoff := by
    obtain ⟨bundle, hbundle, hsettled, hrefs⟩ := h.left other hmem hoff
    have hne : other ≠ owner := fun heq => hoff (heq ▸ h.onPath)
    refine ⟨bundle, hbundle, fun attr hattr => ?_, fun n => ?_⟩
    · exact (hsettled attr hattr).mono (List.Subset.refl path) fun _ hin => hin
    · exact (References.agreesOff_insert other hne n).trans (hrefs n)
  acc := h.acc

/-- A bundle that is entered for the first time has no references yet. -/
theorem enter (h : registry.Orderly path owner state) (hfresh : digest ∉ state.entered) :
    registry.Orderly (path ++ [digest]) digest (state.enter digest) where
  onPath := List.mem_append_right path (List.mem_singleton_self digest)
  entered := List.mem_cons_self
  filled := h.filled
  fresh other hother := h.fresh other fun hmem => hother (List.mem_cons_of_mem digest hmem)
  left other hmem hoff := by
    rw [List.mem_append, List.mem_singleton, not_or] at hoff
    obtain ⟨bundle, hbundle, hsettled, hrefs⟩ :=
      h.left other ((List.mem_cons.mp hmem).resolve_left hoff.2) hoff.1
    refine ⟨bundle, hbundle, fun attr hattr => ⟨(hsettled attr hattr).recognized, ?_⟩, hrefs⟩
    intro target href
    obtain ⟨hloaded, hentered, htarget⟩ := (hsettled attr hattr).entered target href
    refine ⟨hloaded, List.mem_cons_of_mem digest hentered, fun hin => ?_⟩
    rcases List.mem_append.mp hin with hin | hin
    · exact htarget hin
    · exact hfresh (List.mem_singleton.mp hin ▸ hentered)
  acc other hmem hoff := by
    rw [List.mem_append, List.mem_singleton, not_or] at hoff
    exact h.acc other ((List.mem_cons.mp hmem).resolve_left hoff.2) hoff.1

/-- A run that does not stop leaves its bundles settled and recorded. -/
theorem of_run (h : registry.Orderly path owner state)
    (run : registry.Run path owner attrs state final) (hok : final.failure = none) :
    registry.Orderly path owner final where
  onPath := h.onPath
  entered := run.mem_entered h.entered
  filled := run.filled h.filled
  fresh other hother n := by
    rw [run.find?_of_not_mem h.entered hother]
    exact h.fresh other (fun hmem => hother (run.mem_entered hmem)) n
  left other hmem hoff := by
    by_cases hbefore : other ∈ state.entered
    · obtain ⟨bundle, hbundle, hsettled, hrefs⟩ := h.left other hbefore hoff
      have hne : other ≠ owner := fun heq => hoff (heq ▸ h.onPath)
      refine ⟨bundle, hbundle, fun attr hattr => ?_, fun n => ?_⟩
      · exact (hsettled attr hattr).mono (List.Subset.refl path) fun _ => run.mem_entered
      · exact (run.find?_of_ne hbefore hne).trans (hrefs n)
    · exact run.settled_bundle hok h.entered h.fresh other hmem hbefore
  acc := run.acc hok h.acc

/-! ### what was left behind -/

/-- What was left behind leads only to what was left behind. -/
theorem leads (h : registry.Orderly path owner state) (hmem : digest ∈ state.entered)
    (hoff : digest ∉ path) {other : String}
    (hleads : Relation.ReflTransGen registry.ReferredBy other digest) :
    other ∈ state.entered ∧ other ∉ path := by
  induction hleads using Relation.ReflTransGen.head_induction_on with
  | refl => exact ⟨hmem, hoff⟩
  | head hrefers _ ih =>
      obtain ⟨found, hfound, attr, hattr, href⟩ := hrefers
      obtain ⟨bundle, hbundle, hsettled, -⟩ := h.left _ ih.1 ih.2
      obtain rfl := Option.some.inj (hbundle.symm.trans hfound)
      exact ((hsettled attr hattr).entered _ href).2

/-- A bundle that was entered and left again is finished. -/
theorem finished (h : registry.Orderly path owner state) (hmem : digest ∈ state.entered)
    (hoff : digest ∉ path) {bundle : Bundle} (hloaded : registry.find? digest = some bundle) :
    registry.Finished state.references bundle := by
  obtain ⟨found, hfound, hsettled, hrefs⟩ := h.left digest hmem hoff
  obtain rfl := Option.some.inj (hloaded.symm.trans hfound)
  refine ⟨fun attr hattr => (hsettled attr hattr).recognized, ?_, ?_⟩
  · rintro target ⟨attr, hattr, href⟩
    exact ((hsettled attr hattr).entered target href).1
  · rw [digest_of_find? hloaded]
    exact hrefs

/-- A bundle that was left behind may be entered again. -/
theorem plainAttributes_eq (h : registry.Orderly path owner state)
    (hmem : digest ∈ state.entered) (hoff : digest ∉ path) {bundle : Bundle}
    (hloaded : registry.find? digest = some bundle) :
    registry.plainAttributes (path ++ [digest]) digest bundle.attributes state.references =
      .ok state.references := by
  refine plainAttributes_of_finished (h.acc digest hmem hoff) hloaded h.filled ?_ ?_
  · intro other found hleads hfound
    obtain ⟨hmem', hoff'⟩ := h.leads hmem hoff hleads
    exact h.finished hmem' hoff' hfound
  · exact fun other hleads => (h.leads hmem hoff hleads).2

end Orderly

/-! ## the two resolutions -/

/-- Without memory a run ends as it does with memory. -/
theorem Run.plainAttributes_eq {registry : Registry} {path : List String} {owner : String}
    {attrs : List Attribute} {state final : Resolution}
    (run : registry.Run path owner attrs state final) (hok : state.failure = none)
    (hstate : registry.Orderly path owner state) :
    registry.plainAttributes path owner attrs state.references = final.outcome := by
  induction run with
  | done => rw [plainAttributes_nil, Resolution.outcome_of_eq_none hok]
  | primitive type _ ih => rw [plainAttributes_primitive type, ih hok hstate]
  | unsupported type => exact plainAttributes_unsupported type
  | unresolved type missing => exact plainAttributes_unresolved type missing
  | cyclic type loaded onPath => exact plainAttributes_cyclic type loaded onPath
  | @known _ _ attr _ _ _ digest _ type loaded offPath entered _ ih =>
      have hrecorded := hstate.record attr.name digest
      have hagain := hrecorded.plainAttributes_eq entered offPath loaded
      rw [plainAttributes_reference type loaded offPath]
      exact (congrArg (· >>= _) hagain).trans (ih hok hrecorded)
  | @stopped _ _ attr _ _ final digest _ type loaded offPath fresh _ failed ih =>
      have hinner := ih hok ((hstate.record attr.name digest).enter fresh)
      obtain ⟨error, herror⟩ := Option.ne_none_iff_exists'.mp failed
      rw [Resolution.outcome_of_eq_some herror] at hinner ⊢
      rw [plainAttributes_reference type loaded offPath]
      exact congrArg (· >>= _) hinner
  | @entered _ _ attr _ _ middle _ digest _ type loaded offPath fresh inner succeeded _ ihInner
      ihRest =>
      have hrecorded := hstate.record attr.name digest
      have hinner := ihInner hok (hrecorded.enter fresh)
      rw [Resolution.outcome_of_eq_none succeeded] at hinner
      -- the bundle and all below it make one run of the attribute alone
      have hmiddle := hstate.of_run
        (.entered type loaded offPath fresh inner succeeded .done) succeeded
      rw [plainAttributes_reference type loaded offPath]
      exact (congrArg (· >>= _) hinner).trans (ihRest succeeded hmiddle)

/-- **Resolution with and without memory agree.**  Entering every bundle that
is referred to, as often as it is, and looking for cycles on the active path
only, ends with the same references, or with the same error. -/
theorem resolve_eq_plainResolve (base : Bundle) (dependencies : List Bundle) :
    (ofList dependencies).resolve base = (ofList dependencies).plainResolve base := by
  have hstate : (ofList dependencies).Orderly [base.digest] base.digest
      ⟨.empty, [base.digest], none⟩ :=
    { onPath := List.mem_singleton_self _
      entered := List.mem_singleton_self _
      filled := References.filled_empty
      fresh := fun other _ name => References.find?_empty other name
      left := fun _ hmem hoff => absurd hmem hoff
      acc := fun _ hmem hoff => absurd hmem hoff }
  exact ((resolution_run _ base).plainAttributes_eq rfl hstate).symm

/-- Two references to one bundle: the second finds it entered before, and
without memory it is entered twice. -/
example :
    let base : Bundle := ⟨"Eroot", [.bare "home" (.scalar (.reference "Eaddress")),
      .bare "work" (.scalar (.reference "Eaddress"))], .empty⟩
    let address : Bundle := ⟨"Eaddress", [.bare "city" (.scalar (.primitive .text))], .empty⟩
    ((ofList [address]).plainResolve base).toOption.map (·.find? "Eroot" "work") =
      some (some "Eaddress") := by
  decide +kernel

end Registry

end FormCompiler
