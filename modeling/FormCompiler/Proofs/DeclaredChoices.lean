import FormCompiler.Proofs.FieldDerivation

/-!
# FormCompiler.Proofs.DeclaredChoices

The choices that a form offers for an attribute with an entry set.  What is
declared is stated apart from the builder: `Attribute.Offers` compares codes
with codes, in order, and each label with the language declared first.

* A descriptor made from an entry set offers just what is declared
  (`Attribute.offers_iff`), and the answer of a question never takes its
  place (`Walker.descriptor_of_entries`).
* A boolean under radio buttons is given the choices yes and no before its
  descriptor is made, also where it declares others.  So the entry of an
  attribute offers the declared choices exactly if it is no such boolean, or
  declares just yes and no (`Walker.declared_choices_offered_iff`).
-/

namespace FormCompiler

/-! ## codes and labels -/

/-- The codes in order: each flat code alone, each group with the codes in
it. -/
def EntryCodes.outline : EntryCodes → List (String × Option (List String))
  | flat codes => codes.map fun code => (code, none)
  | grouped groups => groups.map fun group => (group.1, some group.2)

/-- Codes outlined one by one are flat. -/
theorem EntryCodes.eq_flat_of_outline {codes : EntryCodes} {first : String} {rest : List String}
    (h : (first :: rest).map (fun code => (code, none)) = codes.outline) :
    codes = flat (first :: rest) := by
  cases codes with
  | flat names =>
      have hnames := congrArg (List.map Prod.fst) h
      simp only [outline, List.map_map, Function.comp_def, List.map_id'] at hnames
      exact congrArg flat hnames.symm
  | grouped groups =>
      -- a group has options, the first code has none
      cases groups <;> simp [outline] at h

namespace ChoiceVariant

/-- The code of a variant and those of its options. -/
def outline (variant : ChoiceVariant) : String × Option (List String) :=
  (variant.code, variant.options.map fun options => options.map (·.code))

/-- A variant and all its options carry the label of their code. -/
structure LabelledBy (variant : ChoiceVariant) (label : String → Option String) : Prop where
  own : variant.label = label variant.code
  options : ∀ options, variant.options = some options →
    ∀ option ∈ options, option.label = label option.code

/-- The variant of some codes, labelled. -/
def ofOutline (label : String → Option String) (codes : String × Option (List String)) :
    ChoiceVariant :=
  ⟨codes.1, label codes.1, codes.2.map fun inner => inner.map fun code => ⟨code, label code⟩⟩

variable {label : String → Option String}

/-- A variant that is made of codes has these codes. -/
@[simp] theorem outline_ofOutline (codes : String × Option (List String)) :
    (ofOutline label codes).outline = codes := by
  obtain ⟨code, options⟩ := codes
  cases options <;> simp [ofOutline, outline, Function.comp_def]

/-- A variant that is made of codes carries their labels. -/
theorem labelledBy_ofOutline (codes : String × Option (List String)) :
    (ofOutline label codes).LabelledBy label := by
  refine ⟨rfl, fun options hoptions option hoption => ?_⟩
  obtain ⟨inner, -, rfl⟩ := Option.map_eq_some_iff.mp hoptions
  obtain ⟨code, -, rfl⟩ := List.mem_map.mp hoption
  rfl

/-- A labelled variant is told by its codes. -/
theorem LabelledBy.ofOutline_outline {variant : ChoiceVariant} (h : variant.LabelledBy label) :
    ofOutline label variant.outline = variant := by
  obtain ⟨code, own, options⟩ := variant
  obtain ⟨hown, hoptions⟩ := h
  have hown : own = label code := hown
  subst hown
  cases options with
  | none => rfl
  | some options =>
      have hsame : options.map (fun option => ChoiceOption.mk option.code (label option.code)) =
          options := by
        refine (List.map_congr_left fun option hoption => ?_).trans (List.map_id options)
        rw [← hoptions options rfl option hoption]
        rfl
      simp [ofOutline, outline, Function.comp_def, hsame]

end ChoiceVariant

/-! ## declared choices -/

def Localized.firstLabel? (entries : Localized EntryLabels) (code : String) : Option String :=
  entries.first?.bind (·.find? code)

/-- The variants are the declared codes in declared order, labelled in the
language declared first. -/
structure Attribute.Offers (attr : Attribute) (entries : Localized EntryLabels)
    (variants : List ChoiceVariant) : Prop where
  codes : variants.map (·.outline) = (attr.entryCodes.map (·.outline)).getD []
  labels : ∀ variant ∈ variants, variant.LabelledBy entries.firstLabel?

namespace Attribute

variable {attr : Attribute} {entries : Localized EntryLabels}

/-- The builder labels the declared codes one by one. -/
theorem variants_eq (attr : Attribute) (entries : Localized EntryLabels) :
    attr.variants entries = ((attr.entryCodes.map (·.outline)).getD []).map
      (ChoiceVariant.ofOutline entries.firstLabel?) := by
  unfold variants
  cases attr.entryCodes with
  | none => rfl
  | some codes => cases codes <;> simp [EntryCodes.outline, ChoiceVariant.ofOutline,
      Localized.firstLabel?, Function.comp_def]

/-- The builder offers what is declared and nothing else. -/
theorem offers_iff {variants : List ChoiceVariant} :
    attr.Offers entries variants ↔ variants = attr.variants entries := by
  constructor
  · intro h
    have hlabelled : variants.map
        (fun variant => ChoiceVariant.ofOutline entries.firstLabel? variant.outline) = variants :=
      (List.map_congr_left fun variant hvariant =>
        (h.labels variant hvariant).ofOutline_outline).trans (List.map_id variants)
    rw [variants_eq, ← h.codes, List.map_map]
    exact hlabelled.symm
  · rintro rfl
    rw [variants_eq]
    refine ⟨by simp [Function.comp_def], fun variant hvariant => ?_⟩
    obtain ⟨codes, -, rfl⟩ := List.mem_map.mp hvariant
    exact ChoiceVariant.labelledBy_ofOutline codes

/-- The attribute declares the choices yes and no, labelled as they are for
booleans. -/
structure DeclaresYesNo (attr : Attribute) (entries : Localized EntryLabels) : Prop where
  codes : attr.entryCodes = some (.flat ["true", "false"])
  yes : entries.firstLabel? "true" = some "prefill.yes"
  no : entries.firstLabel? "false" = some "prefill.no"

/-- The choices yes and no are the declared ones only of an attribute that
declares just these. -/
theorem offers_yesNo_iff :
    attr.Offers entries [⟨"true", some "prefill.yes", none⟩, ⟨"false", some "prefill.no", none⟩] ↔
      attr.DeclaresYesNo entries := by
  constructor
  · rintro ⟨hcodes, hlabels⟩
    have hyes := hlabels _ List.mem_cons_self
    have hno := hlabels _ (List.mem_cons_of_mem _ List.mem_cons_self)
    refine ⟨?_, hyes.own.symm, hno.own.symm⟩
    cases hdeclared : attr.entryCodes with
    | none => simp [hdeclared] at hcodes
    | some codes =>
        simp only [hdeclared, Option.map_some, Option.getD_some] at hcodes
        exact congrArg some (EntryCodes.eq_flat_of_outline hcodes)
  · rintro ⟨hcodes, hyes, hno⟩
    rw [offers_iff, variants_eq, hcodes]
    simp [EntryCodes.outline, ChoiceVariant.ofOutline, hyes, hno]

end Attribute

/-! ## choices of a field -/

namespace Walker

def widget? (w : Walker) (path : Path) : Option Widget :=
  (WidgetProperties.ofHints? (w.hints? path)).widget

/-- The attribute below a path is a single boolean under radio buttons. -/
def AsksYesNo (w : Walker) (above : Path) (declared : Attribute) : Prop :=
  declared.type = .scalar (.primitive .boolean) ∧
    w.widget? (above.child declared.name) = some .radio

variable {w : Walker} {bundle : Bundle} {above : Path} {declared : Attribute}
  {entries : Localized EntryLabels} {entry : FieldEntry}

/-- The walk tests the array flag, the base type and the widget one by one. -/
theorem asksYesNo_iff :
    w.AsksYesNo above declared ↔
      !declared.type.isArray ∧ declared.type.base = .primitive .boolean ∧
        (WidgetProperties.ofHints? (w.hints? (above.child declared.name))).uses .radio := by
  rcases htype : declared.type with ⟨base, isArray⟩
  cases isArray <;> simp [AsksYesNo, widget?, WidgetProperties.uses, AttributeType.scalar, htype]

/-- Where yes and no are asked for, they replace whatever is declared. -/
theorem prefilled_of_asksYesNo (h : w.AsksYesNo above declared) :
    w.prefilled above declared =
      { declared with
        entries := some yesNoEntries
        entryCodes := some (.flat ["true", "false"]) } :=
  if_pos (asksYesNo_iff.mp h)

/-- Any other attribute is left as it is declared. -/
theorem prefilled_of_not_asksYesNo (h : ¬ w.AsksYesNo above declared) :
    w.prefilled above declared = declared :=
  if_neg fun hasks => h (asksYesNo_iff.mpr hasks)

/-- The answer of a question never takes the place of a choice. -/
theorem answered_choice {display : ChoiceDisplay} {variants : List ChoiceVariant}
    {descriptor : Descriptor} {journal : Journal}
    (h : w.answered bundle above declared (.choice display variants) = ⟨.ok descriptor, journal⟩) :
    descriptor = .choice display variants := by
  by_cases hunasked : w.question? (above.child declared.name) = none ∨
      declared.type.reference? = none
  · rw [answered_of_unasked hunasked, Walk.pure_eq, Walk.mk.injEq, Except.ok.injEq] at h
    exact h.1.symm
  · obtain ⟨hasked, hrefers⟩ := not_or.mp hunasked
    obtain ⟨hints, hasked⟩ := Option.ne_none_iff_exists'.mp hasked
    obtain ⟨digest, hrefers⟩ := Option.ne_none_iff_exists'.mp hrefers
    obtain ⟨_, _, answer, _, runs, _, _, _, _, _, hdescriptor, _⟩ :=
      answered_eq_ok hasked hrefers h
    exact hdescriptor

/-- An entry set becomes a choice, whatever the type and the widget. -/
theorem descriptor_of_entries (hentries : (w.prefilled above declared).entries = some entries)
    (h : (w.fieldEntry bundle above declared).outcome = .ok entry) :
    ∃ display,
      entry.descriptor = .choice display ((w.prefilled above declared).variants entries) := by
  obtain ⟨plain, descriptor, parts, hplain, hanswered, rfl, -⟩ :=
    fieldEntry_eq_ok (Walk.eq_of_outcome h)
  rw [plainDescriptor, Attribute.descriptor, hentries] at hplain
  obtain rfl := Except.ok.inj hplain
  exact ⟨_, answered_choice hanswered⟩

/-- The entry of an attribute with an entry set is a choice of what is
declared, unless the attribute is a boolean under radio buttons, which is
given the choices yes and no in its place. -/
theorem declared_choices_offered_iff (hentries : declared.entries = some entries)
    (h : (w.fieldEntry bundle above declared).outcome = .ok entry) :
    ∃ display variants, entry.descriptor = .choice display variants ∧
      (declared.Offers entries variants ↔
        (w.AsksYesNo above declared → declared.DeclaresYesNo entries)) := by
  by_cases hasks : w.AsksYesNo above declared
  · have hprefilled := prefilled_of_asksYesNo hasks
    have hyesNo := congrArg Attribute.entries hprefilled
    obtain ⟨display, hchoice⟩ := descriptor_of_entries hyesNo h
    rw [hprefilled] at hchoice
    refine ⟨display, _, hchoice, ?_⟩
    rw [forall_prop_of_true hasks]
    exact Attribute.offers_yesNo_iff
  · have hprefilled := prefilled_of_not_asksYesNo hasks
    obtain ⟨display, hchoice⟩ := descriptor_of_entries (hprefilled ▸ hentries) h
    rw [hprefilled] at hchoice
    refine ⟨display, _, hchoice, ?_⟩
    rw [forall_prop_of_false hasks, iff_true]
    exact Attribute.offers_iff.mpr rfl

/-- Booleans in an array are not asked yes or no, radio buttons or not, and
keep their groups of codes. -/
theorem declared_choices_offered_iff_of_groups :
    let entries : Localized EntryLabels :=
      .ofList [("eng", .ofList [("home", "At home"), ("tv", "Television")]),
        ("deu", .ofList [("home", "Zuhause"), ("car", "Auto")])]
    let owns : Attribute := { Attribute.bare "owns" (.array (.primitive .boolean)) with
      entryCodes := some (.grouped [("home", ["tv", "car"])])
      entries := some entries }
    let w : Walker :=
      { presentation :=
          { bundleDigest := "Eperson", digest := none, languages := ["eng"], pages := []
            pageOrder := [], pageLabels := .empty, interactions := [] }
        interaction := some ⟨"web", "capture",
          .ofList [("owns", { Hints.none with widget := some "radio" })]⟩
        registry := .ofList [], references := .empty
        conditionals := .empty, readonly := [], now := .unixEpoch }
    ∃ entry display variants,
      (w.fieldEntry ⟨"Eperson", [owns], .empty⟩ .root owns).outcome = .ok entry ∧
      w.widget? (Path.root.child "owns") = some .radio ∧
      entry.descriptor = .choice display variants ∧ owns.Offers entries variants ∧
      variants = [⟨"home", some "At home",
        some [⟨"tv", some "Television"⟩, ⟨"car", none⟩]⟩] := by
  intro entries owns w
  have hentry : (w.fieldEntry ⟨"Eperson", [owns], .empty⟩ .root owns).outcome.toOption.isSome =
      true := by decide +kernel
  obtain ⟨entry, hentry⟩ := Option.isSome_iff_exists.mp hentry
  have houtcome := ok_of_toOption hentry
  obtain ⟨display, variants, hchoice, hoffers⟩ := declared_choices_offered_iff rfl houtcome
  have hoffered : owns.Offers entries variants := hoffers.mpr fun hasks => nomatch hasks.1
  have hvariants : owns.variants entries = [⟨"home", some "At home",
      some [⟨"tv", some "Television"⟩, ⟨"car", none⟩]⟩] := by decide +kernel
  exact ⟨entry, display, variants, houtcome, by decide +kernel, hchoice, hoffered,
    (Attribute.offers_iff.mp hoffered).trans hvariants⟩

/-- A boolean under radio buttons with choices of its own: the form offers
yes and no in their place. -/
theorem declared_choices_replaced :
    let entries : Localized EntryLabels :=
      .ofList [("eng", .ofList [("y", "Smokes"), ("n", "Never smoked"), ("q", "Quit")])]
    let smoker : Attribute := { Attribute.bare "smoker" (.scalar (.primitive .boolean)) with
      entryCodes := some (.flat ["y", "n", "q"])
      entries := some entries }
    let w : Walker :=
      { presentation :=
          { bundleDigest := "Eperson", digest := none, languages := ["eng"], pages := []
            pageOrder := [], pageLabels := .empty, interactions := [] }
        interaction := some ⟨"web", "capture",
          .ofList [("smoker", { Hints.none with widget := some "radio" })]⟩
        registry := .ofList [], references := .empty
        conditionals := .empty, readonly := [], now := .unixEpoch }
    ∃ entry display,
      (w.fieldEntry ⟨"Eperson", [smoker], .empty⟩ .root smoker).outcome = .ok entry ∧
      entry.descriptor = .choice display
        [⟨"true", some "prefill.yes", none⟩, ⟨"false", some "prefill.no", none⟩] ∧
      ∀ display variants, entry.descriptor = .choice display variants →
        ¬ smoker.Offers entries variants := by
  intro entries smoker w
  have hentry : (w.fieldEntry ⟨"Eperson", [smoker], .empty⟩ .root smoker).outcome.toOption.isSome =
      true := by decide +kernel
  obtain ⟨entry, hentry⟩ := Option.isSome_iff_exists.mp hentry
  have houtcome := ok_of_toOption hentry
  have hasks : w.AsksYesNo .root smoker := ⟨rfl, by decide +kernel⟩
  have hprefilled := prefilled_of_asksYesNo hasks
  have hyesNo := congrArg Attribute.entries hprefilled
  obtain ⟨display, hchoice⟩ := descriptor_of_entries hyesNo houtcome
  rw [hprefilled] at hchoice
  refine ⟨entry, display, houtcome, hchoice, fun other variants hother hoffers => ?_⟩
  obtain ⟨-, rfl⟩ := Descriptor.choice.inj (hchoice.symm.trans hother)
  have hcodes : smoker.entryCodes = some (.flat ["true", "false"]) :=
    (Attribute.offers_yesNo_iff.mp hoffers).codes
  revert hcodes
  decide

end Walker

end FormCompiler
