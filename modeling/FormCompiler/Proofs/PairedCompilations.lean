import FormCompiler.Proofs.Compilation
import FormCompiler.Proofs.PairedWalks

/-!
# FormCompiler.Proofs.PairedCompilations

Two compilations of one bundle side by side.  Where both resolve the bundle
alike and walk over its pages with walkers that an observer cannot tell
apart, they end with the same error, or with forms of which the observer
sees the same and with related tables
(`CompileRequest.Paired.sameResult`).
-/

namespace FormCompiler

namespace CompileRequest

/-- Two compilations end with the same error, or with forms of which an
observer sees the same and with related tables. -/
inductive SameResult (see : Observer) (Same : SideTables → SideTables → Prop) :
    Except CompileError CompiledForm → Except CompileError CompiledForm → Prop
  | error {error} : SameResult see Same (.error error) (.error error)
  | ok {first second : CompiledForm} (form : first.form.observed see = second.form.observed see)
      (tables : Same ⟨first.locales, first.identifiers⟩ ⟨second.locales, second.identifiers⟩) :
      SameResult see Same (.ok first) (.ok second)

/-- The same result is an error on both sides, or a form. -/
theorem SameResult.error_or_ok {see : Observer} {Same : SideTables → SideTables → Prop}
    {result result' : Except CompileError CompiledForm} (h : SameResult see Same result result') :
    (∃ error, result = .error error ∧ result' = .error error) ∨
    ∃ first second, result = .ok first ∧ result' = .ok second ∧
      first.form.observed see = second.form.observed see ∧
      Same ⟨first.locales, first.identifiers⟩ ⟨second.locales, second.identifiers⟩ := by
  cases h with
  | @error error => exact .inl ⟨error, rfl, rfl⟩
  | ok form tables => exact .inr ⟨_, _, rfl, rfl, form, tables⟩

/-- Results that are the same to an observer that looks at everything, with
equal tables, are equal. -/
theorem SameResult.eq {result result' : Except CompileError CompiledForm}
    (h : SameResult .full Eq result result') : result = result' := by
  cases h with
  | error => rfl
  | @ok first second form tables =>
      obtain ⟨hlocales, hidentifiers⟩ := SideTables.mk.inj tables
      rw [Form.observed_full, Form.observed_full] at form
      cases first
      cases second
      rw [CompiledForm.mk.injEq .. |>.mpr ⟨form, hlocales, hidentifiers⟩]

/-- Two requests present one bundle with the same pages, and resolve it
alike, with walkers that an observer cannot tell apart. -/
structure Paired (see : Observer) (Same : SideTables → SideTables → Prop)
    (request request' : CompileRequest) (options options' : CompileOptions) : Prop where
  bundle : request.bundle = request'.bundle
  bundleDigest : request.presentation.bundleDigest = request'.presentation.bundleDigest
  pageOrder : request.presentation.pageOrder = request'.presentation.pageOrder
  failure : ((Registry.ofList request.dependencies).resolution request.bundle).failure =
    ((Registry.ofList request'.dependencies).resolution request'.bundle).failure
  walkers : ((Registry.ofList request.dependencies).resolution request.bundle).failure = none →
    ∃ Held : Bundle → Prop, Held request.bundle ∧
      (request.resolvedWalker options).Indistinct see Same Held (request'.resolvedWalker options')
  tables : Same (.forLanguages request.presentation.languages)
    (.forLanguages request'.presentation.languages)

namespace Paired

variable {see : Observer} {Same : SideTables → SideTables → Prop}
  {request request' : CompileRequest} {options options' : CompileOptions}

/-- With the references resolved, the walks over the pages are alike. -/
theorem alike_pagesWalk (h : Paired see Same request request' options options')
    (hok : ((Registry.ofList request.dependencies).resolution request.bundle).failure = none) :
    (request.pagesWalk (request.resolvedWalker options).references options).Alike Same
      (Form.observed see)
      (request'.pagesWalk (request'.resolvedWalker options').references options') := by
  obtain ⟨Held, hbase, hwalkers⟩ := h.walkers hok
  rw [pagesWalk, pagesWalk, ← h.bundle, ← h.pageOrder]
  refine (Walker.alike_orderedPages hwalkers hbase _).bind fun pages pages' hpages => ?_
  refine Walk.alike_bind_same hwalkers.written fun _ _ => ?_
  refine (Walk.alike_notify _ _).bind fun _ _ _ => ?_
  exact Walk.alike_pure (congrArg Form.mk hpages)

/-- Resolution fails alike on both sides, or the walks over the pages follow.
-/
theorem alike_walk (h : Paired see Same request request' options options') :
    (request.walk options).Alike Same (Form.observed see) (request'.walk options') := by
  have hpresents : request'.presentsBundle = request.presentsBundle := by
    rw [presentsBundle, presentsBundle, h.bundle, h.bundleDigest]
  rw [walk, walk, hpresents, h.bundleDigest, ← h.bundle]
  split
  · cases hfailure : ((Registry.ofList request.dependencies).resolution request.bundle).failure with
    | some error =>
        have hfailure' := h.failure.symm.trans hfailure
        rw [← h.bundle] at hfailure'
        simp only [hfailure, hfailure']
        exact Walk.alike_fail
    | none =>
        have hfailure' := h.failure.symm.trans hfailure
        have hpages := h.alike_pagesWalk hfailure
        rw [resolvedWalker, resolvedWalker] at hpages
        rw [← h.bundle] at hfailure' hpages
        simp only [hfailure, hfailure']
        exact (Walk.alike_notify _ _).bind fun _ _ _ => hpages
  · exact Walk.alike_fail

/-- Both compilations end alike. -/
theorem sameResult (h : Paired see Same request request' options options') :
    SameResult see Same (request.compile options) (request'.compile options') := by
  have hwalk := h.alike_walk
  rw [compile, compile, compilation, compilation]
  generalize request.walk options = first at hwalk ⊢
  generalize request'.walk options' = second at hwalk ⊢
  cases hwalk with
  | error => exact .error
  | ok seen effect => exact .ok seen (effect _ _ h.tables)

end Paired

end CompileRequest

end FormCompiler
