import FormCompiler.Proofs.Placement
import FormCompiler.Proofs.RecordedTexts

/-!
# FormCompiler.Proofs.LabelKeys

Whether the label key of an entry stands in the dictionaries.  Only the
attributes that a compilation visits have their texts recorded, and the list
of an array is not one of them: for its page a title is recorded, although
its entry carries a label key like any other.  So the key of a field is
always there once its attribute has a label, and the key of a list only if
some visited attribute has the same key
(`CompileRequest.contains_label_key_iff`).
-/

namespace FormCompiler

namespace CompileRequest

variable {request : CompileRequest} {options : CompileOptions} {compiled : CompiledForm}
  {lang : String}

/-- The texts that a compilation recorded in a requested language are those
of its journal. -/
theorem find?_locales (h : request.compile options = .ok compiled)
    (hlang : lang ∈ request.presentation.languages) :
    ∃ journal locale, (request.resolvedWalker options).FillsPages request.bundle
        request.presentation.pageOrder compiled.form.pages journal ∧
      compiled.locales.find? lang = some locale ∧
      ∀ key, locale.attributes.find? key = journal.reverse.findSome? (·.textAt? lang key) := by
  obtain ⟨-, journal, hfills, -, htables⟩ := compile_eq_ok h
  have hempty := SideTables.find?_locales_forLanguages lang request.presentation.languages
  rw [if_pos hlang] at hempty
  obtain ⟨locale, hlocale, hkeys⟩ := SideTables.find?_replay hempty
    (journal ++ [.bundleTexts request.bundle])
  rw [htables] at hlocale
  refine ⟨journal, locale, hfills, hlocale, fun key => ?_⟩
  rw [hkeys, List.reverse_append, List.findSome?_append]
  simp [JournalEntry.textAt?, Locale.empty]

/-- A label key is there if a visited attribute of this key has a label. -/
theorem contains_label_iff (h : request.compile options = .ok compiled)
    (hlang : lang ∈ request.presentation.languages) :
    ∃ locale, compiled.locales.find? lang = some locale ∧ ∀ place : Path,
      locale.attributes.contains (place.key "label") = true ↔ ∃ path attr,
        request.Visits options path attr ∧ path.key "label" = place.key "label" ∧
        (attr.labels.get? lang).isSome := by
  obtain ⟨journal, locale, hfills, hlocale, hkeys⟩ := find?_locales h hlang
  refine ⟨locale, hlocale, fun place => ?_⟩
  rw [Dictionary.contains, hkeys, List.findSome?_isSome_iff]
  constructor
  · rintro ⟨entry, hentry, htext⟩
    rw [List.mem_reverse] at hentry
    cases entry with
    | attributeTexts path attr =>
        rw [JournalEntry.textAt?, Attribute.textAt?_label] at htext
        split at htext
        · next hkey =>
            obtain ⟨visited, hvisits, rfl⟩ := hfills.mem_journal_iff.mp hentry
            exact ⟨path, visited, hvisits, hkey.symm, by simpa using htext⟩
        · contradiction
    | title | bundleTexts | identifier | notice => simp [JournalEntry.textAt?] at htext
  · rintro ⟨path, attr, hvisits, hkey, hlabel⟩
    have hentry := hfills.mem_journal_iff.mpr ⟨attr, hvisits, rfl⟩
    refine ⟨_, List.mem_reverse.mpr hentry, ?_⟩
    rw [JournalEntry.textAt?, Attribute.textAt?_label, if_pos hkey.symm]
    simpa using hlabel

/-- Every labelled entry of a compiled form is built from an attribute.  If
the attribute has a label in a requested language, the key of the entry is
in the dictionary of the language when the entry is no list, and for every
entry exactly when an attribute with a label is visited under this key. -/
theorem contains_label_key_iff (h : request.compile options = .ok compiled)
    (hlang : lang ∈ request.presentation.languages) :
    ∃ locale, compiled.locales.find? lang = some locale ∧
      (∀ path entry, (path, entry) ∈ compiled.form.located → entry.label ≠ none →
        ∃ attr, request.Places options compiled.form ⟨path, attr, entry⟩) ∧
      ∀ placement, request.Places options compiled.form placement →
        (placement.attr.labels.get? lang).isSome →
        (placement.path, placement.entry) ∈ compiled.form.located ∧
        ∃ key, placement.entry.label = some key ∧
          (placement.entry.isList = false → locale.attributes.contains key = true) ∧
          (locale.attributes.contains key = true ↔ ∃ path attr, request.Visits options path attr ∧
            path.key "label" = key ∧ (attr.labels.get? lang).isSome) := by
  obtain ⟨locale, hlocale, hkeys⟩ := contains_label_iff h hlang
  refine ⟨locale, hlocale, fun path entry => exists_places h, fun placement hplaces hlabelled => ?_⟩
  obtain ⟨hlocated, hlabel, hvisits⟩ := hplaces.sound h
  refine ⟨hlocated, _, hlabel, fun hlist => ?_, hkeys placement.path⟩
  exact (hkeys placement.path).mpr ⟨_, _, hvisits hlist, rfl, hlabelled⟩

/-- A form of one field, whose label key is there. -/
theorem contains_label_key_iff_of_field :
    let text : Attribute := { Attribute.bare "text" (.scalar (.primitive .text)) with
      labels := .ofList [("eng", "Text")] }
    let request : CompileRequest :=
      { bundle := ⟨"Enote", [text], .empty⟩
        dependencies := []
        presentation :=
          { bundleDigest := "Enote", digest := none, languages := ["eng"]
            pages := [⟨none, none, some "main", [.field "text"]⟩]
            pageOrder := ["main"], pageLabels := .empty, interactions := [] }
        conditionals := .empty
        readonly := [] }
    ∃ compiled locale placement, request.compile default = .ok compiled ∧
      compiled.locales.find? "eng" = some locale ∧
      request.Places default compiled.form placement ∧
      placement.entry.label = some "text.label" ∧
      locale.attributes.contains "text.label" = true := by
  intro text request
  have hok : (request.compile default).isOk = true := by decide +kernel
  obtain ⟨compiled, hcompile⟩ := exists_compile_eq_ok hok
  obtain ⟨locale, hlocale, -, hkeys⟩ :=
    contains_label_key_iff hcompile (List.mem_singleton_self "eng")
  obtain ⟨-, journal, hfills, -, -⟩ := compile_eq_ok hcompile
  generalize hpages : compiled.form.pages = pages at hfills
  cases hfills with
  | missing missing => contradiction
  | page found addressed inside others =>
      cases found
      cases inside with
      | field found' built others' =>
          cases found'
          have hplaces : request.Places default compiled.form ⟨_, text, _⟩ :=
            ⟨_, hpages ▸ List.mem_cons_self, _, rfl, .field rfl .self⟩
          obtain ⟨-, key, hlabel, hcontains, -⟩ := hkeys _ hplaces rfl
          have hkey : some key = some "text.label" :=
            (hlabel.symm.trans built.label_eq).trans (by decide)
          obtain rfl := Option.some.inj hkey
          exact ⟨compiled, locale, _, hcompile, hlocale, hplaces, hlabel,
            hcontains built.isList_eq⟩

/-- The list of an array with a label, whose key is not there: its page has
the title and the fields of the elements have their labels, the list has
none. -/
theorem list_label_key_missing :
    let contacts : Attribute := { Attribute.bare "contacts" (.array (.reference "Econtact")) with
      labels := .ofList [("eng", "Contacts")] }
    let phone : Attribute := { Attribute.bare "phone" (.scalar (.primitive .text)) with
      labels := .ofList [("eng", "Phone")] }
    let request : CompileRequest :=
      { bundle := ⟨"Eperson", [contacts], .empty⟩
        dependencies := [⟨"Econtact", [phone], .empty⟩]
        presentation :=
          { bundleDigest := "Eperson", digest := none, languages := ["eng"]
            pages := [⟨none, none, some "main", [.page ⟨none, some "contacts", none,
              [.field "phone"]⟩]⟩]
            pageOrder := ["main"], pageLabels := .ofList [("eng", .ofList [("main", "Main")])]
            interactions := [] }
        conditionals := .empty
        readonly := [] }
    ∃ compiled locale placement, request.compile default = .ok compiled ∧
      "eng" ∈ request.presentation.languages ∧ compiled.locales.find? "eng" = some locale ∧
      request.Places default compiled.form placement ∧
      (placement.attr.labels.get? "eng").isSome ∧
      placement.entry.label = some "contacts.label" ∧
      locale.attributes.contains "contacts.label" = false := by
  intro contacts phone request
  have hmissing : ((request.compile default).toOption.bind fun compiled =>
      (compiled.locales.find? "eng").map (·.attributes.contains "contacts.label")) =
        some false := by decide +kernel
  obtain ⟨compiled, hcompiled, hlocale⟩ := Option.bind_eq_some_iff.mp hmissing
  obtain ⟨locale, hlocale, hcontains⟩ := Option.map_eq_some_iff.mp hlocale
  have hcompile : request.compile default = .ok compiled := by
    cases hresult : request.compile default with
    | error error => simp [hresult, Except.toOption] at hcompiled
    | ok value => simpa [hresult, Except.toOption] using hcompiled
  obtain ⟨-, journal, hfills, -, -⟩ := compile_eq_ok hcompile
  generalize hpages : compiled.form.pages = pages at hfills
  cases hfills with
  | missing missing => contradiction
  | page found addressed inside others =>
      cases found
      cases inside with
      | synthetic addressed' => contradiction
      | embedded addressed' embeds found' refers scalar =>
          cases addressed'
          cases found'
          contradiction
      | list addressed' embeds found' refers array =>
          cases addressed'
          cases found'
          have hplaces : request.Places default compiled.form ⟨_, contacts, _⟩ :=
            ⟨_, hpages ▸ List.mem_cons_self, _, rfl, .list rfl embeds rfl rfl rfl⟩
          exact ⟨compiled, locale, _, hcompile, List.mem_singleton_self _, hlocale, hplaces, rfl,
            rfl, hcontains⟩

end CompileRequest

end FormCompiler
