import FormCompiler.Proofs.ValidPresentations
import FormCompiler.Proofs.WalkErrors

/-!
# FormCompiler.Proofs.ValidAddresses

The addresses of the pages of a validated presentation.  The schema asks for
a naming key and forbids `nr` along with `ns`, but not `n` along with one of
them.  So a page of a validated presentation has an address exactly if it
has no such stray `n`, and a compilation of the presentation that fails for
an address fails for a stray `n` (`Presentation.Explains`).
-/

namespace FormCompiler

/-! ## pages -/

namespace PageSpec

variable {spec inner : PageSpec}

/-- Has the page `n` along with another naming key? -/
def HasStrayName (spec : PageSpec) : Prop :=
  spec.name.isSome = true ∧ (spec.reference.isSome = true ∨ spec.synthetic.isSome = true)

theorem IsNamed.of_within (h : spec.IsNamed) (hinner : inner.Within spec) : inner.IsNamed := by
  induction hinner with
  | refl => exact h
  | entry listed _ ih =>
      cases h with
      | mk _ _ within => exact ih (within _ listed)

/-- A named page has an address unless it has a stray name. -/
theorem IsNamed.address_isOk_iff (h : spec.IsNamed) :
    spec.address.isOk = true ↔ ¬ spec.HasStrayName := by
  cases h with
  | mk named apart _ =>
      obtain ⟨name, reference, synthetic, entries⟩ := spec
      cases name <;> cases reference <;> cases synthetic <;>
        simp_all [HasStrayName, address, Except.isOk, Except.toBool]

/-- An error in the address of a named page is that of a stray name. -/
theorem IsNamed.address_error (h : spec.IsNamed) {error : CompileError}
    (herror : spec.address = .error error) :
    ∃ page, error = .conflictingAddress page .nameAndOther ∧ spec.name = some page ∧
      spec.HasStrayName := by
  cases h with
  | mk named apart _ =>
      obtain ⟨name, reference, synthetic, entries⟩ := spec
      unfold address at herror
      split at herror
      · simp_all
      · next page _ _ _ _ =>
          exact ⟨page, (Except.error.inj herror).symm, by simp_all [HasStrayName]⟩
      · next page _ _ _ _ =>
          exact ⟨page, (Except.error.inj herror).symm, by simp_all [HasStrayName]⟩
      all_goals simp_all

end PageSpec

/-! ## presentations -/

namespace Presentation

variable {p : Presentation}

/-- Is it a page of the presentation or within one, at any depth? -/
def HasPage (p : Presentation) (spec : PageSpec) : Prop := ∃ page ∈ p.pages, spec.Within page

theorem IsNamed.of_hasPage (h : p.IsNamed) {spec : PageSpec} (hspec : p.HasPage spec) :
    spec.IsNamed := by
  obtain ⟨page, hpage, hwithin⟩ := hspec
  exact (h page hpage).of_within hwithin

/-- If the error is one of addresses, then that of a stray name on a page of
the presentation. -/
def Explains (p : Presentation) : CompileError → Prop
  | .unnamedPage => False
  | .conflictingAddress page conflict =>
    conflict = .nameAndOther ∧
      ∃ spec, p.HasPage spec ∧ spec.name = some page ∧ spec.HasStrayName
  | _ => True

theorem IsNamed.addressed (h : p.IsNamed) : ∀ spec ∈ p.pages, spec.Addressed p.Explains := by
  intro spec hspec inner hinner error herror
  have hpage : p.HasPage inner := ⟨spec, hspec, hinner⟩
  obtain ⟨page, rfl, hname, hstray⟩ := (h.of_hasPage hpage).address_error herror
  exact ⟨rfl, inner, hpage, hname, hstray⟩

end Presentation

/-! ## compilations -/

/-- A descriptor fails for its type only. -/
theorem Attribute.exists_unsupportedType_of_descriptor {attr : Attribute}
    {props : WidgetProperties} {now : Timestamp} {error : CompileError}
    (h : attr.descriptor props now = .error error) :
    ∃ name type, error = .unsupportedType name type := by
  obtain ⟨single, -, -, hsingle⟩ := scalarDescriptor_of_error h
  unfold scalarDescriptor at hsingle
  split at hsingle
  all_goals try contradiction
  exact ⟨_, _, (Except.error.inj hsingle).symm⟩

/-- A walk meets no error of addresses in bundles. -/
theorem Walker.permits_explained (w : Walker) (p : Presentation) :
    w.Permits (fun _ => True) p.Explains where
  unknownAttribute _ _ := trivial
  notAReference _ _ := trivial
  identifierFormat _ _ := trivial
  plainDescriptor _ _ _ _ _ _ herror := by
    obtain ⟨name, type, rfl⟩ := Attribute.exists_unsupportedType_of_descriptor herror
    trivial
  dependency bundle _ attr _ _ _ := by
    unfold Walker.dependency
    split
    · exact Walk.ensures_done trivial
    · exact Walk.ensures_fail trivial

/-- A compilation that fails for an address fails for a stray name. -/
theorem CompileRequest.explained_of_compile {request : CompileRequest} {options : CompileOptions}
    {error : CompileError} (hnamed : request.presentation.IsNamed)
    (h : request.compile options = .error error) : request.presentation.Explains error := by
  refine error_of_compile (fun _ _ => trivial) ?_ (fun references => ?_) h
  · exact (Registry.resolution_run _ _).failed (fun _ _ => trivial) (fun _ _ => trivial)
      (fun _ => trivial) (by simp)
  · exact ensures_pagesWalk ((request.walker references options).permits_explained _) trivial
      hnamed.addressed

/-- Documents are read together or not at all. -/
theorem CompileDocuments.presentation_of_read {docs : CompileDocuments} {request : CompileRequest}
    (h : docs.read = .ok request) :
    Presentation.ofJson docs.presentation = .ok request.presentation := by
  unfold read at h
  obtain ⟨bundle, -, h⟩ := except_bind_eq_ok.mp h
  obtain ⟨dependencies, -, h⟩ := except_bind_eq_ok.mp h
  obtain ⟨presentation, hpresentation, h⟩ := except_bind_eq_ok.mp h
  obtain ⟨conditionals, -, h⟩ := except_bind_eq_ok.mp h
  obtain rfl := Except.ok.inj h
  exact hpresentation

/-- Documents with a presentation whose pages are named. -/
theorem CompileDocuments.explained_of_compile {docs : CompileDocuments} {options : CompileOptions}
    {p : Presentation} {error : CompileError}
    (hread : Presentation.ofJson docs.presentation = .ok p) (hnamed : p.IsNamed)
    (h : docs.compile options = .error error) : p.Explains error := by
  unfold compile compilation at h
  split at h
  · next failure _ =>
      obtain rfl := Except.error.inj h
      trivial
  · next request hrequest =>
      have hpresentation : request.presentation = p :=
        Except.ok.inj ((presentation_of_read hrequest).symm.trans hread)
      exact hpresentation ▸ request.explained_of_compile (hpresentation ▸ hnamed) h

/-! ## validation -/

namespace CommandLine

variable {tree : FileTree} {arguments : List String} {now : Timestamp} {path : String}
  {manner : Manner}

/-- In a presentation that was validated, a page at any depth has an address
exactly if it has no `n` along with `nr` or `ns`, and such a page is what a
compilation with an error of addresses stopped at. -/
theorem validated_pages_addressed
    (harguments : Invocation.ofArguments arguments = .ok ⟨manner, .validate path⟩)
    (hcode : (runIn tree arguments now).1.code = 0) :
    ∃ value p, readJson tree.read path = .ok value ∧ Presentation.ofJson value = .ok p ∧
      (∀ spec, p.HasPage spec → (spec.address.isOk = true ↔ ¬ spec.HasStrayName)) ∧
      ∀ docs options error, docs.presentation = value →
        CompileDocuments.compile docs options = .error error →
          error ≠ .unnamedPage ∧
          ∀ page conflict, error = .conflictingAddress page conflict →
            conflict = .nameAndOther ∧
              ∃ spec, p.HasPage spec ∧ spec.name = some page ∧ spec.HasStrayName := by
  rw [runIn_validate harguments] at hcode
  obtain ⟨value, p, hvalue, hp, hnamed⟩ := exists_presentation_of_runValidate hcode
  refine ⟨value, p, hvalue, hp, fun spec hspec => (hnamed.of_hasPage hspec).address_isOk_iff, ?_⟩
  intro docs options error hpresentation hcompile
  have hexplained : p.Explains error :=
    CompileDocuments.explained_of_compile (hpresentation ▸ hp) hnamed hcompile
  refine ⟨?_, ?_⟩
  · rintro rfl
    exact hexplained
  · rintro page conflict rfl
    exact hexplained

/-- A page of an attribute below a page that only groups its entries. -/
theorem validated_pages_addressed_of_nested :
    let nested := Json.object [("nr", .string "visit"), ("ao", .array [.string "place"])]
    let main := Json.object [("ns", .string "main"), ("ao", .array [.string "name", nested])]
    let document := Json.object
      [("bd", .string "Eperson"), ("p", .array [main]), ("po", .array [.string "main"])]
    let tree := FileTree.ofList [("p.json", document.compact.toUTF8)]
    Invocation.ofArguments ["validate", "p.json"] = .ok ⟨⟨.text, false⟩, .validate "p.json"⟩ ∧
      (runIn tree ["validate", "p.json"] .unixEpoch).1.code = 0 ∧
      ∃ value p, readJson tree.read "p.json" = .ok value ∧ Presentation.ofJson value = .ok p ∧
        (∀ spec, p.HasPage spec → (spec.address.isOk = true ↔ ¬ spec.HasStrayName)) ∧
        ∀ docs options error, docs.presentation = value →
          CompileDocuments.compile docs options = .error error →
            error ≠ .unnamedPage ∧
            ∀ page conflict, error = .conflictingAddress page conflict →
              conflict = .nameAndOther ∧
                ∃ spec, p.HasPage spec ∧ spec.name = some page ∧ spec.HasStrayName := by
  intro nested main document tree
  have harguments : Invocation.ofArguments ["validate", "p.json"] =
      .ok ⟨⟨.text, false⟩, .validate "p.json"⟩ := by rfl
  have hcode : (runIn tree ["validate", "p.json"] .unixEpoch).1.code = 0 := by decide +kernel
  exact ⟨harguments, hcode, validated_pages_addressed harguments hcode⟩

/-- A page with `n` along with `nr` is valid.  It has no address, and the
presentation cannot be compiled. -/
theorem stray_name_validated :
    let page := Json.object [("n", .string "main"), ("nr", .string "visit"), ("ao", .array [])]
    let document := Json.object
      [("bd", .string "Eperson"), ("p", .array [page]), ("po", .array [.string "main"])]
    let bundle := Json.object [("digest", .string "Eperson"), ("attributes", .array [])]
    let tree := FileTree.ofList [("p.json", document.compact.toUTF8)]
    (runIn tree ["validate", "p.json"] .unixEpoch).1 = ⟨0, "valid\n", ""⟩ ∧
      (∃ value p spec, readJson tree.read "p.json" = .ok value ∧
        Presentation.ofJson value = .ok p ∧ p.HasPage spec ∧
        spec.address = .error (.conflictingAddress "main" .nameAndOther)) ∧
      CompileDocuments.compile ⟨bundle, [], document, .null, []⟩ default =
        .error (.conflictingAddress "main" .nameAndOther) := by
  intro page document bundle tree
  refine ⟨by decide +kernel, ?_, by with_unfolding_all rfl⟩
  have hread : ((readJson tree.read "p.json").toOption.bind fun value =>
      (Presentation.ofJson value).toOption).any (fun p => p.pages.any fun spec =>
        decide (spec.name = some "main" ∧ spec.reference = some "visit" ∧
          spec.synthetic = none)) = true := by decide +kernel
  obtain ⟨p, hp, hpages⟩ := (Option.any_eq_true _ _).mp hread
  obtain ⟨value, hvalue, hp⟩ := Option.bind_eq_some_iff.mp hp
  obtain ⟨spec, hspec, hkeys⟩ := List.any_eq_true.mp hpages
  obtain ⟨hname, hreference, hsynthetic⟩ := of_decide_eq_true hkeys
  refine ⟨value, p, spec, ok_of_toOption hvalue, ok_of_toOption hp, ⟨spec, hspec, .refl⟩, ?_⟩
  rw [PageSpec.address, hname, hreference, hsynthetic]

end CommandLine

end FormCompiler
