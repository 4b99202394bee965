import FormCompiler.Proofs.DeclaredChoices
import FormCompiler.Proofs.RecordedTexts

/-!
# FormCompiler.Proofs.ChoiceLabels

The labels of choices reach a reader twice: within the form, in the language
declared first, and through the dictionaries, in every requested language.
Where the first language is requested, the two agree: once the field of an
attribute is built, its labels stand in the dictionary of that language, and
every variant and option of the field carries the label that stands there
(`Walker.choice_labels_recorded`).  The texts of an attribute are written
down last, so whatever its question recorded before does not disturb them
(`Walker.find?_after_fieldEntry`).
-/

namespace FormCompiler

/-! ## the language declared first -/

def Localized.firstLanguage? {α : Type} (values : Localized α) : Option String :=
  values.entries.head?.map (·.1)

theorem Localized.get?_of_firstLanguage? {α : Type} {values : Localized α} {lang : String}
    (h : values.firstLanguage? = some lang) : values.get? lang = values.first? := by
  have hfirst : values.languages.head? = some lang := by rwa [languages, List.head?_map]
  rw [first?_eq, hfirst, Option.bind_some]

namespace Walker

variable {w : Walker} {bundle : Bundle} {above : Path} {declared : Attribute}
  {tables after : SideTables} {entry : FieldEntry} {lang : String}

/-! ## dictionaries behind a field -/

/-- The texts of an attribute are what the walk over its field writes last. -/
theorem find?_after_fieldEntry
    (h : (w.fieldEntry bundle above declared).runOn tables = (.ok entry, after))
    (hrequested : (tables.locales.find? lang).isSome) :
    ∃ before : Locale, after.locales.find? lang =
      some (before.recordAttribute lang (above.child declared.name)
        (w.prefilled above declared)) := by
  obtain ⟨houtcome, rfl⟩ := Prod.mk.inj h
  obtain ⟨_, _, parts, -, -, -, hjournal⟩ := fieldEntry_eq_ok (Walk.eq_of_outcome houtcome)
  rw [hjournal, SideTables.replay_append]
  have hkept : ((tables.replay (w.boundNotices above declared ++ parts)).locales.find?
      lang).isSome := by
    rwa [SideTables.find?_locales_replay, Option.isSome_map]
  obtain ⟨before, hbefore⟩ := Option.isSome_iff_exists.mp hkept
  refine ⟨before, ?_⟩
  rw [SideTables.replay, List.foldl_cons, List.foldl_nil, SideTables.find?_locales_enter, hbefore]
  rfl

/-! ## labels within the form and beside it -/

variable {display : ChoiceDisplay} {variants : List ChoiceVariant}
  {entries : Localized EntryLabels}

/-- The labels of a field of choices are those that its path has in the
dictionary of the first language. -/
theorem choice_labels_recorded
    (h : (w.fieldEntry bundle above declared).runOn tables = (.ok entry, after))
    (hchoice : entry.descriptor = .choice display variants)
    (hentries : (w.prefilled above declared).entries = some entries)
    (hfirst : entries.firstLanguage? = some lang)
    (hrequested : (tables.locales.find? lang).isSome) :
    ∃ locale labels, after.locales.find? lang = some locale ∧
      locale.attributes.find? ((above.child declared.name).render ++ ".entries") =
        some (.entries labels) ∧
      ∀ variant ∈ variants, variant.LabelledBy labels.find? := by
  obtain ⟨before, hafter⟩ := find?_after_fieldEntry h hrequested
  obtain ⟨_, hbuilt⟩ := descriptor_of_entries hentries (Prod.mk.inj h).1
  obtain ⟨-, rfl⟩ := Descriptor.choice.inj (hchoice.symm.trans hbuilt)
  obtain ⟨labels, hlabels⟩ : ∃ labels, entries.first? = some labels := by
    obtain ⟨head, hhead, -⟩ := Option.map_eq_some_iff.mp hfirst
    exact ⟨head.2, by rw [Localized.first?, hhead, Option.map_some]⟩
  have hrecorded : entries.get? lang = some labels :=
    (Localized.get?_of_firstLanguage? hfirst).trans hlabels
  have hkey : (above.child declared.name).render ++ ".entries" =
      (above.child declared.name).key TextProperty.entries.name := by
    rw [Path.key_child, String.append_assoc]
    rfl
  refine ⟨_, labels, hafter, ?_, fun variant hvariant => ?_⟩
  · rw [hkey, Locale.find?_recordAttribute, Attribute.textAt?_key, if_pos rfl, Attribute.text?,
      hentries, Option.bind_some, hrecorded]
    rfl
  · have hoffers : (w.prefilled above declared).Offers entries
        ((w.prefilled above declared).variants entries) := Attribute.offers_iff.mpr rfl
    have hfirstLabel : entries.firstLabel? = labels.find? := by
      funext code
      rw [Localized.firstLabel?, hlabels, Option.bind_some]
    exact hfirstLabel ▸ hoffers.labels variant hvariant

/-- A question about an attribute with a group of codes, one of them without
a label: its answer is recorded before the choices are. -/
theorem choice_labels_recorded_of_question :
    let agree : Attribute := { Attribute.bare "agree" (.scalar (.primitive .boolean)) with
      labels := .ofList [("eng", "Agree")] }
    let consent : Attribute := { Attribute.bare "consent" (.scalar (.reference "Econsent")) with
      entryCodes := some (.grouped [("given", ["full", "partial"])])
      entries := some (.ofList [("eng", .ofList [("full", "In full"), ("given", "Given")]),
        ("deu", .ofList [("partial", "Teilweise")])]) }
    let person : Bundle := ⟨"Eperson", [consent], .empty⟩
    let registry := Registry.ofList [⟨"Econsent", [agree], .empty⟩]
    let w : Walker :=
      { presentation :=
          { bundleDigest := "Eperson", digest := none, languages := ["eng"], pages := []
            pageOrder := [], pageLabels := .empty, interactions := [] }
        interaction := some ⟨"web", "capture", .ofList [("consent",
          { Hints.none with widget := some "question", answer := some "agree" })]⟩
        registry
        references := (registry.resolution person).references
        conditionals := .empty, readonly := [], now := .unixEpoch }
    let given : ChoiceVariant :=
      ⟨"given", some "Given", some [⟨"full", some "In full"⟩, ⟨"partial", none⟩]⟩
    let labels : EntryLabels := .ofList [("full", "In full"), ("given", "Given")]
    ∃ entry after display locale,
      (w.fieldEntry person .root consent).runOn (.forLanguages ["eng"]) = (.ok entry, after) ∧
      entry.descriptor = .choice display [given] ∧
      after.locales.find? "eng" = some locale ∧
      locale.attributes.find? "consent.entries" = some (.entries labels) ∧
      locale.attributes.find? "consent.agree.label" = some (.text "Agree") ∧
      given.LabelledBy labels.find? := by
  intro agree consent person registry w given labels
  have hentry : (w.fieldEntry person .root consent).outcome.toOption.isSome = true := by
    decide +kernel
  obtain ⟨entry, hentry⟩ := Option.isSome_iff_exists.mp hentry
  have hrun : (w.fieldEntry person .root consent).runOn (.forLanguages ["eng"]) =
      (.ok entry, SideTables.replay (.forLanguages ["eng"])
        (w.fieldEntry person .root consent).journal) :=
    Prod.ext (ok_of_toOption hentry) rfl
  have hprefilled : w.prefilled .root consent = consent :=
    prefilled_of_not_asksYesNo fun hasks => nomatch hasks.1
  obtain ⟨display, hchoice⟩ := descriptor_of_entries (congrArg Attribute.entries hprefilled)
    (ok_of_toOption hentry)
  rw [hprefilled] at hchoice
  have hgiven : entry.descriptor = .choice display [given] := hchoice
  obtain ⟨locale, recorded, hlocale, hrecorded, hvariants⟩ := choice_labels_recorded hrun hgiven
    (congrArg Attribute.entries hprefilled) rfl (by decide +kernel)
  have hkey : (Path.root.child consent.name).render ++ ".entries" = "consent.entries" := by
    decide +kernel
  have hlabels : ((SideTables.replay (.forLanguages ["eng"])
      (w.fieldEntry person .root consent).journal).locales.find? "eng").bind
        (·.attributes.find? "consent.entries") = some (.entries labels) := by decide +kernel
  have hanswer : ((SideTables.replay (.forLanguages ["eng"])
      (w.fieldEntry person .root consent).journal).locales.find? "eng").bind
        (·.attributes.find? "consent.agree.label") = some (.text "Agree") := by decide +kernel
  rw [hlocale, Option.bind_some] at hlabels hanswer
  rw [hkey, hlabels] at hrecorded
  obtain rfl : labels = recorded := LocaleText.entries.inj (Option.some.inj hrecorded)
  exact ⟨entry, _, display, locale, hrun, hgiven, hlocale, hlabels, hanswer,
    hvariants given List.mem_cons_self⟩

end Walker

end FormCompiler
