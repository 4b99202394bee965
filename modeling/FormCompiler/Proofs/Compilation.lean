import FormCompiler.Compile
import FormCompiler.Proofs.PageDerivation
import FormCompiler.Proofs.WalkedBundles

/-!
# FormCompiler.Proofs.Compilation

A compilation that succeeds, taken apart: the references are resolved, the
pages have a derivation under the walker of the request, and the tables are
those that the journal leaves behind (`CompileRequest.compile_eq_ok`).
-/

namespace FormCompiler

namespace CompileRequest

variable {request : CompileRequest} {references : References} {options : CompileOptions}

/-- The walk over the pages ends with pages that have a derivation.  It writes
what their derivation writes, then the display texts of the bundle, then
notices. -/
theorem pagesWalk_eq_ok {form : Form} {journal : Journal}
    (h : request.pagesWalk references options = ⟨.ok form, journal⟩) :
    ∃ (first : Journal) (rest : List Notice),
      (request.walker references options).FillsPages request.bundle
        request.presentation.pageOrder form.pages first ∧
      journal = first ++ .bundleTexts request.bundle :: rest.map .notice := by
  rw [pagesWalk, Walk.bind_eq_ok] at h
  obtain ⟨pages, first, last, hpages, h, rfl⟩ := h
  rw [Walk.bind_eq_ok] at h
  obtain ⟨_, texts, last, htexts, h, rfl⟩ := h
  obtain rfl := Walk.write_eq_ok.mp htexts
  rw [Walk.bind_eq_ok] at h
  obtain ⟨_, noticed, last, hnoticed, h, rfl⟩ := h
  obtain rfl := Walk.notify_eq_ok.mp hnoticed
  simp only [Walk.pure_eq, Walk.mk.injEq, Except.ok.injEq] at h
  obtain ⟨rfl, rfl⟩ := h
  exact ⟨first, [_], Walker.fillsPages_of_orderedPages hpages, rfl⟩

/-- The walk of a request that ends with a form. -/
theorem walk_eq_ok {form : Form} {journal : Journal}
    (h : request.walk options = ⟨.ok form, journal⟩) :
    request.presentsBundle = true ∧ ∃ (references : References) (notice : Notice) (pages : Journal),
      (Registry.ofList request.dependencies).resolve request.bundle = .ok references ∧
      request.pagesWalk references options = ⟨.ok form, pages⟩ ∧
      journal = .notice notice :: pages := by
  unfold walk at h
  split at h
  · next hpresents =>
      refine ⟨hpresents, ?_⟩
      dsimp only at h
      split at h
      · simp at h
      · next hok =>
          rw [Walk.bind_eq_ok] at h
          obtain ⟨_, noticed, last, hnoticed, h, rfl⟩ := h
          obtain rfl := Walk.notify_eq_ok.mp hnoticed
          exact ⟨_, _, last, Registry.resolve_eq_ok_iff.mpr ⟨hok, rfl⟩, h, rfl⟩
  · simp at h

/-- The setting of the walk over the pages once the references are
resolved. -/
def resolvedWalker (request : CompileRequest) (options : CompileOptions) : Walker :=
  request.walker ((Registry.ofList request.dependencies).resolution request.bundle).references
    options

/-- The hints for capturing what stands at a path. -/
def hints? (request : CompileRequest) (path : Path) : Option Hints :=
  request.presentation.captureInteraction?.bind (·.hints.find? path.render)

/-- A compilation that succeeds. -/
theorem compile_eq_ok {compiled : CompiledForm}
    (h : request.compile options = .ok compiled) :
    (Registry.ofList request.dependencies).resolve request.bundle =
        .ok (request.resolvedWalker options).references ∧
      ∃ journal, (request.resolvedWalker options).FillsPages request.bundle
        request.presentation.pageOrder compiled.form.pages journal ∧
      (∃ (before : Notice) (after : List Notice), (request.walk options).journal =
        .notice before :: (journal ++ .bundleTexts request.bundle :: after.map .notice)) ∧
      (SideTables.forLanguages request.presentation.languages).replay
        (journal ++ [.bundleTexts request.bundle]) =
          ⟨compiled.locales, compiled.identifiers⟩ := by
  unfold compile compilation at h
  cases hwalk : request.walk options with
  | mk outcome journal =>
      rw [hwalk] at h
      cases outcome with
      | error error => simp [Except.map] at h
      | ok form =>
          obtain ⟨-, references, before, pages, hresolve, hpages, rfl⟩ := walk_eq_ok hwalk
          obtain ⟨first, after, hfills, rfl⟩ := pagesWalk_eq_ok hpages
          simp only [Except.map, Except.ok.injEq] at h
          obtain rfl := h
          obtain ⟨hok, rfl⟩ := Registry.resolve_eq_ok_iff.mp hresolve
          refine ⟨hresolve, first, hfills, ⟨before, after, rfl⟩, ?_⟩
          have hjournal : JournalEntry.notice before ::
              (first ++ .bundleTexts request.bundle :: after.map .notice) =
              [before].map .notice ++ ((first ++ [.bundleTexts request.bundle]) ++
                after.map .notice) := by simp
          simp only [hjournal, SideTables.replay_append _ _ (_ ++ _),
            SideTables.replay_append _ _ (after.map _), SideTables.replay_notices]

theorem exists_compile_eq_ok (h : (request.compile options).isOk = true) :
    ∃ compiled, request.compile options = .ok compiled := by
  cases hcompile : request.compile options with
  | error error => simp [hcompile, Except.isOk, Except.toBool] at h
  | ok compiled => exact ⟨compiled, rfl⟩

/-- What is found in a compiled form is there. -/
theorem exists_mem_of_compile (request : CompileRequest) (options : CompileOptions) {α : Type}
    (items : CompiledForm → List α) (p : α → Bool)
    (h : ((request.compile options).toOption.any fun compiled => (items compiled).any p) = true) :
    ∃ compiled x, request.compile options = .ok compiled ∧ x ∈ items compiled ∧ p x = true := by
  cases hcompile : request.compile options with
  | error error => simp [hcompile, Except.toOption] at h
  | ok compiled =>
      rw [hcompile] at h
      obtain ⟨x, hx, hp⟩ := List.any_eq_true.mp h
      exact ⟨compiled, x, rfl, hx, hp⟩

/-- Once the references are resolved, a compilation fails as the walk over
the pages does. -/
theorem compile_eq_error_iff {error : CompileError} (hpresents : request.presentsBundle = true)
    (hresolve : (Registry.ofList request.dependencies).resolve request.bundle =
      .ok references) :
    request.compile options = .error error ↔
      (request.pagesWalk references options).outcome = .error error := by
  obtain ⟨hok, hreferences⟩ := Registry.resolve_eq_ok_iff.mp hresolve
  have houtcome : (request.walk options).outcome =
      (request.pagesWalk references options).outcome := by
    rw [walk, if_pos hpresents]
    simp only [hok, hreferences, Walk.outcome_bind]
    rfl
  simp only [compile, compilation, houtcome]
  cases (request.pagesWalk references options).outcome <;> simp [Except.map]

end CompileRequest

end FormCompiler
