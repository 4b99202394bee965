import FormCompiler.Proofs.WalkErrors

/-!
# FormCompiler.Proofs.PageErrors

How a walk over the pages can fail once the references are resolved.  Every
bundle that the walk reads is one that the base reaches, so

* whatever an attribute refers to is found, and
* no attribute has an unknown type.

What is left are the errors of the presentation and the types that no widget
captures (`CompileError.ArisesOnPages`).
-/

namespace FormCompiler

/-! ## errors of descriptors -/

/-- A type whose values are captured by certain widgets only. -/
inductive AttributeType.NeedsWidget : AttributeType → Prop
  | dateTime : NeedsWidget (.scalar (.primitive .dateTime))
  | binary : NeedsWidget (.scalar (.primitive .binary))
  | reference {digest} : NeedsWidget (.scalar (.reference digest))

/-- The text of such a type. -/
theorem AttributeType.NeedsWidget.render_eq {type : AttributeType} (h : type.NeedsWidget) :
    type.render = "DateTime" ∨ type.render = "Binary" ∨
      ∃ digest, type.render = "refs:" ++ digest := by
  cases h with
  | dateTime => exact .inl rfl
  | binary => exact .inr (.inl rfl)
  | @reference digest => exact .inr (.inr ⟨digest, rfl⟩)

theorem AttributeType.NeedsWidget.base_ne {type : AttributeType} (h : type.NeedsWidget)
    (raw : String) : type.base ≠ .unrecognized raw := by
  cases h with
  | dateTime | binary | reference => simp [scalar]

/-- The errors with which a walk over the pages of a resolved bundle can
fail. -/
inductive CompileError.ArisesOnPages : CompileError → Prop
  | unknownAttribute {name bundle} : ArisesOnPages (.unknownAttribute name bundle)
  | conflictingAddress {page conflict} : ArisesOnPages (.conflictingAddress page conflict)
  | unnamedPage : ArisesOnPages .unnamedPage
  | notAReference {name type} : ArisesOnPages (.notAReference name type)
  | identifierFormat {path found} : ArisesOnPages (.identifierFormat path found)
  | unsupportedType {name type} (needs : type.NeedsWidget) :
      ArisesOnPages (.unsupportedType name type)

open CompileError (ArisesOnPages)

section Descriptors

variable {attr : Attribute} {props : WidgetProperties} {now : Timestamp} {error : CompileError}

/-- A single value of a known type can only fail for want of a widget. -/
theorem Attribute.scalarDescriptor_error (recognized : ∀ raw, attr.type.base ≠ .unrecognized raw)
    (scalar : attr.type.isArray = false) (h : attr.scalarDescriptor props now = .error error) :
    error.ArisesOnPages := by
  have htype : attr.type = .scalar attr.type.base := by
    rw [AttributeType.scalar, ← scalar]
  unfold scalarDescriptor at h
  split at h
  -- every arm but the last one has a descriptor
  all_goals try contradiction
  obtain rfl := Except.error.inj h
  refine .unsupportedType ?_
  rw [htype]
  clear htype
  cases hbase : attr.type.base with
  | unrecognized raw => exact absurd hbase (recognized raw)
  | reference digest => exact .reference
  | primitive kind =>
      cases kind with
      | dateTime => exact .dateTime
      | binary => exact .binary
      | text | numeric | boolean => simp_all

/-- An attribute of a known type can only fail for want of a widget. -/
theorem Attribute.descriptor_error (recognized : ∀ raw, attr.type.base ≠ .unrecognized raw)
    (h : attr.descriptor props now = .error error) : error.ArisesOnPages := by
  obtain ⟨single, hbase, scalar, hsingle⟩ := scalarDescriptor_of_error h
  exact scalarDescriptor_error (by rwa [hbase]) scalar hsingle

end Descriptors

/-- A page without an address is a fault of the presentation. -/
theorem PageSpec.address_error {spec : PageSpec} {error : CompileError}
    (h : spec.address = .error error) : error.ArisesOnPages := by
  unfold address at h
  split at h
  all_goals cases h
  · exact .conflictingAddress
  · exact .conflictingAddress
  · exact .conflictingAddress
  · exact .unnamedPage

/-! ## errors of walks -/

namespace Walker

variable {w : Walker} {base bundle : Bundle}

/-- A walk over a resolved base stays within the bundles that the base
reaches. -/
theorem permits_arisesOnPages (hw : w.registry.resolve base = .ok w.references) :
    w.Permits (w.registry.Reaches base) ArisesOnPages where
  unknownAttribute _ _ := .unknownAttribute
  notAReference _ _ := .notAReference
  identifierFormat _ _ := .identifierFormat
  plainDescriptor bundle hbundle declared hdeclared above error herror := by
    obtain ⟨hok, -⟩ := Registry.resolve_eq_ok_iff.mp hw
    refine Attribute.descriptor_error ?_ herror
    rw [prefilled, Attribute.type_prefilled]
    exact (Registry.resolvable_of_resolution hok).recognized bundle hbundle declared hdeclared
  dependency bundle hbundle attr hattr digest href := by
    obtain ⟨dep, hdep⟩ := exists_dependency? hw hbundle hattr href
    rw [dependency, hdep]
    exact Walk.ensures_done (reaches_of_dependency? hw hbundle hdep)

/-- So over a resolved base nothing else stops the walk. -/
theorem ensures_orderedPages (hw : w.registry.resolve base = .ok w.references)
    (hbundle : w.registry.Reaches base bundle) (names : List String) :
    (w.orderedPages bundle names).Ensures (fun _ => True) ArisesOnPages :=
  (permits_arisesOnPages hw).ensures_orderedPages
    (fun _ _ _ _ _ herror => PageSpec.address_error herror) hbundle names

end Walker

/-! ## errors of compilations -/

namespace CompileRequest

/-- Once the references are resolved, a compilation fails only for its
presentation or for a type that needs another widget; neither a missing
bundle nor a cycle nor an unknown type is met again. -/
theorem pagesWalk_fails_on_pages {request : CompileRequest} {references : References}
    {options : CompileOptions} {error : CompileError}
    (hresolve : (Registry.ofList request.dependencies).resolve request.bundle = .ok references)
    (h : (request.pagesWalk references options).outcome = .error error) :
    (request.presentsBundle = true → request.compile options = .error error) ∧
    error.kind ∉ ["MissingDependencyForFind", "UnresolvedReference", "CyclicReference",
      "PresentationBundleMismatch"] ∧
    error.kind ∈ ["AttributeNotFound", "ConflictingPageAddressing", "UnnamedPage",
      "NotAReference", "InvalidListIdentifierFormat", "UnsupportedAttributeType"] ∧
    ∀ name type, error = .unsupportedType name type → (∀ raw, type.base ≠ .unrecognized raw) ∧
      (type.render = "DateTime" ∨ type.render = "Binary" ∨
        ∃ digest, type.render = "refs:" ++ digest) := by
  have hpages : (request.pagesWalk references options).Ensures (fun _ => True)
      ArisesOnPages := by
    refine (Walker.ensures_orderedPages hresolve .base _).bind fun pages _ => ?_
    refine Walk.ensures_write.bind fun _ _ => ?_
    exact Walk.ensures_notify.bind fun _ _ => Walk.ensures_pure trivial
  refine ⟨fun hpresents => ?_, ?_⟩
  · exact (compile_eq_error_iff hpresents hresolve).mpr h
  · cases hpages.of_error h with
    | unknownAttribute | conflictingAddress | unnamedPage | notAReference | identifierFormat =>
        simp [CompileError.kind]
    | unsupportedType needs =>
        refine ⟨by simp [CompileError.kind], by simp [CompileError.kind], ?_⟩
        rintro name type heq
        obtain ⟨rfl, rfl⟩ := CompileError.unsupportedType.inj heq
        exact ⟨needs.base_ne, needs.render_eq⟩

/-- A date without widget, two references away from the presented bundle. -/
theorem pagesWalk_fails_on_pages_of_date :
    let request : CompileRequest :=
      { bundle := ⟨"Eform", [.bare "person" (.scalar (.reference "Eperson"))], .empty⟩
        dependencies := [⟨"Eperson", [.bare "birth" (.scalar (.reference "Ebirth"))], .empty⟩,
          ⟨"Ebirth", [.bare "day" (.scalar (.primitive .dateTime))], .empty⟩]
        presentation :=
          { bundleDigest := "Eform", digest := none, languages := []
            pages := [⟨none, none, some "main", [.page ⟨none, some "person", none,
              [.page ⟨none, some "birth", none, [.field "day"]⟩]⟩]⟩]
            pageOrder := ["main"], pageLabels := .empty, interactions := [] }
        conditionals := .empty
        readonly := [] }
    ∃ references error,
      (Registry.ofList request.dependencies).resolve request.bundle = .ok references ∧
      (request.pagesWalk references default).outcome = .error error ∧
      request.compile default = .error error ∧
      error.kind ∈ ["AttributeNotFound", "ConflictingPageAddressing", "UnnamedPage",
        "NotAReference", "InvalidListIdentifierFormat", "UnsupportedAttributeType"] := by
  intro request
  have hresolve : (Registry.ofList request.dependencies).resolve request.bundle =
      .ok ((Registry.ofList request.dependencies).resolution request.bundle).references :=
    Registry.resolve_eq_ok_iff.mpr
      ⟨Option.isNone_iff_eq_none.mp (by decide +kernel), rfl⟩
  have hfails : (request.pagesWalk ((Registry.ofList request.dependencies).resolution
      request.bundle).references default).outcome.isOk = false := by decide +kernel
  cases hwalk : (request.pagesWalk ((Registry.ofList request.dependencies).resolution
      request.bundle).references default).outcome with
  | ok form => simp [hwalk, Except.isOk, Except.toBool] at hfails
  | error error =>
      obtain ⟨hcompile, -, hkind, -⟩ := pagesWalk_fails_on_pages hresolve hwalk
      exact ⟨_, error, hresolve, hwalk, hcompile (by decide +kernel), hkind⟩

end CompileRequest

end FormCompiler
