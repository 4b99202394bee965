import FormCompiler.Proofs.Compilation

/-!
# FormCompiler.Proofs.WalkErrors

How a walk over pages can fail, stated for any class of errors.  The walk
stays within a class of bundles, and what it meets there has errors of the
class only (`Walker.Permits`); the pages contribute the errors of their own
addresses (`PageSpec.Addressed`).  Each part of the walk ensures this by the
parts it is made of, up to the pages of the form
(`Walker.Permits.ensures_orderedPages`) and the whole compilation
(`CompileRequest.error_of_compile`).
-/

namespace FormCompiler

/-! ## pages within pages -/

namespace PageSpec

/-- The first page stands within the second one, at any depth.  Every page
stands within itself. -/
inductive Within : PageSpec → PageSpec → Prop
  | refl {spec} : Within spec spec
  | entry {inner outer spec} (listed : .page outer ∈ spec.entries) (within : Within inner outer) :
      Within inner spec

/-- The errors in the addresses of a page and of the pages within it are in
a class. -/
def Addressed (E : CompileError → Prop) (spec : PageSpec) : Prop :=
  ∀ inner : PageSpec, inner.Within spec → ∀ error, inner.address = .error error → E error

/-- The pages within a page have errors of the class if the page has. -/
theorem Addressed.of_entry {E : CompileError → Prop} {outer spec : PageSpec}
    (h : spec.Addressed E) (listed : .page outer ∈ spec.entries) : outer.Addressed E :=
  fun inner within => h inner (.entry listed within)

end PageSpec

/-! ## errors of fields -/

/-- Where a descriptor fails, that of a single value of the same base type
fails, which is the attribute itself or an element of it. -/
theorem Attribute.scalarDescriptor_of_error {attr : Attribute} {props : WidgetProperties}
    {now : Timestamp} {error : CompileError} (h : attr.descriptor props now = .error error) :
    ∃ single : Attribute, single.type.base = attr.type.base ∧ single.type.isArray = false ∧
      single.scalarDescriptor props now = .error error := by
  unfold descriptor at h
  split at h
  · contradiction
  · split at h
    · dsimp only at h
      split at h
      · contradiction
      · cases helement : { attr with type := attr.type.element }.scalarDescriptor props now with
        | ok element =>
            rw [helement] at h
            cases h
        | error failure =>
            rw [helement] at h
            cases h
            exact ⟨{ attr with type := attr.type.element }, rfl, rfl, helement⟩
    · next scalar => exact ⟨attr, rfl, Bool.eq_false_iff.mpr scalar, h⟩

namespace Walker

/-- What a walk meets in bundles of a class: the references lead to bundles
of the class again, and the errors are in the class `E`. -/
structure Permits (w : Walker) (Kept : Bundle → Prop) (E : CompileError → Prop) : Prop where
  unknownAttribute : ∀ name digest, E (.unknownAttribute name digest)
  notAReference : ∀ name type, E (.notAReference name type)
  identifierFormat : ∀ path found, E (.identifierFormat path found)
  plainDescriptor : ∀ bundle, Kept bundle → ∀ declared ∈ bundle.attributes, ∀ above error,
    w.plainDescriptor above declared = .error error → E error
  dependency : ∀ bundle, Kept bundle → ∀ attr ∈ bundle.attributes, ∀ digest,
    attr.type.reference? = some digest → (w.dependency bundle attr.name).Ensures Kept E

namespace Permits

variable {w : Walker} {Kept : Bundle → Prop} {E : CompileError → Prop}
  {bundle : Bundle} {above path : Path}

theorem ensures_findAttribute (hw : w.Permits Kept E) (bundle : Bundle) (name : String) :
    (findAttribute bundle name).Ensures (fun attr => bundle.attribute? name = some attr) E := by
  unfold findAttribute
  cases hattr : bundle.attribute? name with
  | some attr => exact Walk.ensures_done rfl
  | none => exact Walk.ensures_fail (hw.unknownAttribute _ _)

section Parts

variable {build : Attribute → Walk FieldEntry} {dep : Bundle}

/-- A further field fails as its attribute does. -/
theorem ensures_followUpEntry (hw : w.Permits Kept E)
    (hbuild : ∀ inner ∈ dep.attributes, (build inner).Ensures (fun _ => True) E)
    (answer : Path) (followUp : FollowUp) :
    (w.followUpEntry build dep path answer followUp).Ensures (fun _ => True) E := by
  rw [followUpEntry]
  refine (hw.ensures_findAttribute dep followUp.name).bind fun attr hattr => ?_
  refine (hbuild attr (Bundle.mem_of_attribute? hattr)).bind fun entry _ => ?_
  split
  · exact Walk.ensures_pure trivial
  · exact Walk.ensures_pure trivial

/-- The parts of a question fail as the fields of its bundle do. -/
theorem ensures_questionParts (hw : w.Permits Kept E)
    (hbuild : ∀ inner ∈ dep.attributes, (build inner).Ensures (fun _ => True) E)
    (optional : Bool) (hints : Hints) :
    (w.questionParts build dep path optional hints).Ensures (fun _ => True) E := by
  rw [questionParts]
  refine (hw.ensures_findAttribute dep hints.answerName).bind fun inner hinner => ?_
  refine (hbuild inner (Bundle.mem_of_attribute? hinner)).bind fun answer _ => ?_
  have hextras : (hints.followUps.mapM (w.followUpEntry build dep path
      (path.child inner.name))).Ensures (fun extras => ∀ extra ∈ extras, True) E :=
    Walk.ensures_mapM fun followUp _ => hw.ensures_followUpEntry hbuild _ followUp
  exact hextras.bind fun extras _ => Walk.ensures_pure trivial

end Parts

/-- A question leads into the bundle that its attribute refers to, which is
in the class again. -/
theorem ensures_fieldEntry (hw : w.Permits Kept E) (hbundle : Kept bundle) {declared : Attribute}
    (hdeclared : declared ∈ bundle.attributes) :
    (w.fieldEntry bundle above declared).Ensures (fun _ => True) E := by
  induction bundle, above, declared using fieldEntry_induction w with
  | step bundle above declared ih =>
      rw [fieldEntry_eq]
      refine Walk.ensures_notify.bind fun _ _ => ?_
      have hdescribed : (Walk.ofExcept (w.plainDescriptor above declared)).Ensures
          (fun _ => True) E :=
        Walk.ensures_ofExcept (fun _ _ => trivial)
          (hw.plainDescriptor bundle hbundle declared hdeclared above)
      refine hdescribed.bind fun plain _ => ?_
      have hanswered : (w.answered bundle above declared plain).Ensures (fun _ => True) E := by
        unfold answered
        split
        · next hints digest hasked href =>
            refine (hw.dependency bundle hbundle declared hdeclared digest href).bind
              fun dep hdep => ?_
            refine (hw.ensures_questionParts (fun inner hinner => ?_) _ _).bind fun _ _ =>
              Walk.ensures_pure trivial
            exact ih hints hasked dep inner hdep hinner
        · exact Walk.ensures_pure trivial
      refine hanswered.bind fun descriptor _ => ?_
      exact Walk.ensures_write.bind fun _ _ => Walk.ensures_pure trivial

/-! ## errors of pages -/

omit w Kept in
theorem ensures_address {spec : PageSpec} (h : spec.Addressed E) :
    (Walk.ofExcept spec.address).Ensures (fun _ => True) E :=
  Walk.ensures_ofExcept (fun _ _ => trivial) (h spec .refl)

omit w Kept in
theorem ensures_warnOutdated (address : PageAddress) :
    (warnOutdated address).Ensures (fun _ => True) E := Walk.ensures_notify

omit Kept in
theorem ensures_writeTitles (entry : String → JournalEntry) :
    (w.writeTitles entry).Ensures (fun _ => True) E := trivial

omit Kept in
theorem ensures_writeReferenceTitles (attr : Attribute) (key : String) :
    (w.writeReferenceTitles attr key).Ensures (fun _ => True) E :=
  Walk.ensures_notify.bind fun _ _ => ensures_writeTitles _

/-- A list fails for its elements, or for the format of its identifier. -/
theorem ensures_listEntry (hw : w.Permits Kept E) {elements : Walk (List Node)}
    (helements : elements.Ensures (fun _ => True) E) (attr : Attribute) :
    (w.listEntry attr path elements).Ensures (fun _ => True) E := by
  have hidentifier : (w.listIdentifier path).Ensures (fun _ => True) E := by
    unfold listIdentifier
    split
    · exact Walk.ensures_pure trivial
    · next hints id hrequest =>
        have hformat : (Walker.identifierFormat path hints).Ensures (fun _ => True) E := by
          unfold Walker.identifierFormat
          split
          · exact Walk.ensures_done trivial
          · exact Walk.ensures_fail (hw.identifierFormat _ _)
        refine hformat.bind fun format _ => ?_
        exact Walk.ensures_write.bind fun _ _ => Walk.ensures_pure trivial
  refine hidentifier.bind fun identifier _ => ?_
  exact helements.bind fun nodes _ => Walk.ensures_pure trivial

/-- A section reads the same bundle or the one that its attribute refers to,
both of them in the class. -/
theorem ensures_sectionFields (hw : w.Permits Kept E) (hbundle : Kept bundle)
    {within : Bundle → Walk (List Node)}
    (hwithin : ∀ dep, Kept dep → (within dep).Ensures (fun _ => True) E) (address : PageAddress) :
    (w.sectionFields address bundle path within).Ensures (fun _ => True) E := by
  obtain ⟨name, rfl⟩ | embeds := address.synthetic_or_embeds
  · exact (ensures_writeTitles _).bind fun _ _ => hwithin bundle hbundle
  · rw [sectionFields_eq embeds]
    refine (ensures_warnOutdated address).bind fun _ _ => ?_
    refine (hw.ensures_findAttribute bundle address.name).bind fun attr hattr => ?_
    refine (ensures_writeReferenceTitles attr _).bind fun _ _ => ?_
    split
    · exact Walk.ensures_fail (hw.notAReference _ _)
    · next hrefers =>
        obtain ⟨digest, href⟩ : ∃ digest, attr.type.reference? = some digest := by
          simpa [Option.ne_none_iff_exists'] using hrefers
        rw [← Bundle.name_of_attribute? hattr]
        refine (hw.dependency bundle hbundle attr (Bundle.mem_of_attribute? hattr) digest
          href).bind fun dep hdep => ?_
        split
        · exact (hw.ensures_listEntry (hwithin dep hdep) attr).bind fun _ _ =>
            Walk.ensures_pure trivial
        · exact hwithin dep hdep

mutual

/-- The entries of a page fail as each of them may, over a bundle of the class.
-/
theorem ensures_walkEntries (hw : w.Permits Kept E) :
    (entries : List PageEntry) → (∀ spec, .page spec ∈ entries → spec.Addressed E) →
    {bundle : Bundle} → {above : Path} → Kept bundle →
    (w.walkEntries entries bundle above).Ensures (fun _ => True) E
  | [], haddressed, bundle, above, hbundle => Walk.ensures_pure trivial
  | entry :: entries, haddressed, bundle, above, hbundle => by
      rw [walkEntries]
      have hfirst : ∀ spec, entry = .page spec → spec.Addressed E := fun spec heq =>
        haddressed spec (heq ▸ List.mem_cons_self)
      have hrest : ∀ spec, .page spec ∈ entries → spec.Addressed E := fun spec hspec =>
        haddressed spec (List.mem_cons_of_mem _ hspec)
      refine (ensures_walkEntry hw entry hfirst hbundle).bind fun node _ => ?_
      exact (ensures_walkEntries hw entries hrest hbundle).bind fun nodes _ =>
        Walk.ensures_pure trivial

/-- An entry fails as its attribute or its page does. -/
theorem ensures_walkEntry (hw : w.Permits Kept E) :
    (entry : PageEntry) → (∀ spec, entry = .page spec → spec.Addressed E) →
    {bundle : Bundle} → {above : Path} → Kept bundle →
    (w.walkEntry entry bundle above).Ensures (fun _ => True) E
  | .field name, haddressed, bundle, above, hbundle => by
      rw [walkEntry]
      refine (hw.ensures_findAttribute bundle name).bind fun attr hattr => ?_
      exact (hw.ensures_fieldEntry hbundle (Bundle.mem_of_attribute? hattr)).bind fun _ _ =>
        Walk.ensures_pure trivial
  | .page spec, haddressed, bundle, above, hbundle => by
      rw [walkEntry]
      exact (ensures_nestedPage hw spec (haddressed spec rfl) hbundle).bind fun page _ =>
        Walk.ensures_pure trivial

/-- A nested page fails for its address or for its entries, which may belong to
another bundle of the class. -/
theorem ensures_nestedPage (hw : w.Permits Kept E) :
    (spec : PageSpec) → spec.Addressed E → {bundle : Bundle} → {above : Path} → Kept bundle →
    (w.nestedPage spec bundle above).Ensures (fun _ => True) E
  | ⟨name, reference, synthetic, entries⟩, haddressed, bundle, above, hbundle => by
      rw [nestedPage]
      refine (ensures_address haddressed).bind fun address _ => ?_
      refine (hw.ensures_sectionFields hbundle (fun dep hdep => ?_) address).bind fun fields _ =>
        Walk.ensures_pure trivial
      exact ensures_walkEntries hw entries (fun spec hspec => haddressed.of_entry hspec) hdep

end

theorem ensures_orderedPages (hw : w.Permits Kept E)
    (haddressed : ∀ spec ∈ w.presentation.pages, spec.Addressed E) (hbundle : Kept bundle)
    (names : List String) : (w.orderedPages bundle names).Ensures (fun _ => True) E := by
  induction names with
  | nil => exact Walk.ensures_pure trivial
  | cons name names ih =>
      rw [orderedPages]
      split
      · exact Walk.ensures_notify.bind fun _ _ => ih
      · next spec found =>
          have hspec : spec.Addressed E := haddressed spec (List.mem_of_find?_eq_some found)
          have hpage : (w.topLevelPage name spec bundle).Ensures (fun _ => True) E := by
            rw [topLevelPage]
            refine (ensures_address hspec).bind fun address _ => ?_
            refine (ensures_warnOutdated address).bind fun _ _ => ?_
            refine (ensures_writeTitles _).bind fun _ _ => ?_
            exact (hw.ensures_walkEntries spec.entries (fun _ listed => hspec.of_entry listed)
              hbundle).bind fun fields _ => Walk.ensures_pure trivial
          exact hpage.bind fun page _ => ih.bind fun pages _ => Walk.ensures_pure trivial

end Permits

end Walker

/-! ## errors of compilations -/

namespace CompileRequest

variable {request : CompileRequest} {options : CompileOptions} {E : CompileError → Prop}

/-- With the references resolved, the walk over the pages fails with an error
of the class. -/
theorem ensures_pagesWalk {references : References} {Kept : Bundle → Prop}
    (hw : (request.walker references options).Permits Kept E) (hbase : Kept request.bundle)
    (haddressed : ∀ spec ∈ request.presentation.pages, spec.Addressed E) :
    (request.pagesWalk references options).Ensures (fun _ => True) E := by
  refine (hw.ensures_orderedPages haddressed hbase _).bind fun pages _ => ?_
  refine Walk.ensures_write.bind fun _ _ => ?_
  exact Walk.ensures_notify.bind fun _ _ => Walk.ensures_pure trivial

/-- A compilation fails before the references are resolved, while they are,
or on the pages. -/
theorem error_of_compile (hmismatch : ∀ presented bundle, E (.bundleMismatch presented bundle))
    (hresolution : ∀ error,
      ((Registry.ofList request.dependencies).resolution request.bundle).failure = some error →
        E error)
    (hpages : ∀ references, (request.pagesWalk references options).Ensures (fun _ => True) E)
    {error : CompileError} (h : request.compile options = .error error) : E error := by
  have hwalk : (request.walk options).Ensures (fun _ => True) E := by
    unfold walk
    split
    · dsimp only
      split
      · next failure hfailure => exact Walk.ensures_fail (hresolution failure hfailure)
      · exact Walk.ensures_notify.bind fun _ _ => hpages _
    · exact Walk.ensures_fail (hmismatch _ _)
  refine hwalk.of_error ?_
  unfold compile compilation at h
  cases houtcome : (request.walk options).outcome with
  | ok form => simp [houtcome, Except.map] at h
  | error failure =>
      simp only [houtcome, Except.map, Except.error.injEq] at h
      rw [h]

end CompileRequest

end FormCompiler
