import FormCompiler.Proofs.LabelKeys

/-!
# FormCompiler.Proofs.SharedKeys

What stands under the keys of an entry.  Keys are dotted texts, and paths
with the same dotted text share them: a section without attribute adds its
name to the path like the page of a reference does, and a name may hold dots
of its own.  The text that was recorded last stands
(`CompileRequest.lastText?`), so the label, the information and the labels of
codes of an entry are those of its attribute unless an attribute that is
visited at the same dotted path has others
(`CompileRequest.entry_texts_recorded`).
-/

namespace FormCompiler

theorem findSome?_congr_of_mem {α β : Type} {f g : α → Option β} {xs : List α}
    (h : ∀ x ∈ xs, f x = g x) : xs.findSome? f = xs.findSome? g := by
  induction xs with
  | nil => rfl
  | cons x xs ih =>
      obtain ⟨hx, hxs⟩ := List.forall_mem_cons.mp h
      rw [List.findSome?_cons, List.findSome?_cons, hx, ih hxs]

/-! ## visits below the root -/

theorem Path.isRoot_child (p : Path) (name : String) : (p.child name).isRoot = false := by
  simp [isRoot]

namespace Walker

variable {w : Walker} {bundle : Bundle} {above path : Path} {attr visited : Attribute}

theorem VisitsField.isRoot_eq (h : w.VisitsField bundle above attr path visited) :
    path.isRoot = false := by
  induction h with
  | self => exact Path.isRoot_child _ _
  | answer _ _ _ _ _ ih => exact ih
  | followUp _ _ _ _ _ _ ih => exact ih

theorem Visits.isRoot_eq {entries : List PageEntry}
    (h : w.Visits entries bundle above path visited) : path.isRoot = false := by
  induction h with
  | field _ inside => exact inside.isRoot_eq
  | synthetic _ _ ih => exact ih
  | embedded _ _ _ _ ih => exact ih
  | later _ ih => exact ih

end Walker

namespace CompileRequest

variable {request : CompileRequest} {options : CompileOptions} {compiled : CompiledForm}
  {lang : String}

/-- The attribute as it is visited at a path, with what its hints fill in. -/
def prefilled (request : CompileRequest) (path : Path) (attr : Attribute) : Attribute :=
  attr.prefilled (.ofHints? (request.hints? path))

/-! ## the journal of a compilation -/

theorem Visits.isRoot_eq {path : Path} {attr : Attribute} (h : request.Visits options path attr) :
    path.isRoot = false := by
  obtain ⟨_, _, _, _, hvisits⟩ := h
  exact Walker.Visits.isRoot_eq hvisits

/-- The texts of the visited attributes are written down, and no others. -/
theorem mem_journal_iff (h : request.compile options = .ok compiled) {path : Path}
    {attr : Attribute} :
    .attributeTexts path attr ∈ (request.walk options).journal ↔
      ∃ visited, request.Visits options path visited ∧ attr = request.prefilled path visited := by
  obtain ⟨-, journal, hfills, ⟨before, after, hjournal⟩, -⟩ := compile_eq_ok h
  rw [hjournal]
  simp only [List.mem_cons, List.mem_append, List.mem_map, reduceCtorEq, and_false, exists_false,
    or_false, false_or]
  exact hfills.mem_journal_iff

/-- The text of a property in a language that is written down last at a
dotted path. -/
def lastText? (request : CompileRequest) (options : CompileOptions) (lang : String)
    (property : TextProperty) (dotted : String) : Option LocaleText :=
  (request.walk options).journal.reverse.findSome? fun
    | .attributeTexts path attr => if path.render = dotted then attr.text? lang property else none
    | _ => none

/-- Some visited attribute has the text that is written down last. -/
theorem exists_visits_of_lastText? (h : request.compile options = .ok compiled)
    {property : TextProperty} {dotted : String} {text : LocaleText}
    (htext : request.lastText? options lang property dotted = some text) :
    ∃ path attr, request.Visits options path attr ∧ path.render = dotted ∧
      (request.prefilled path attr).text? lang property = some text := by
  obtain ⟨entry, hentry, htext⟩ := List.exists_of_findSome?_eq_some htext
  rw [List.mem_reverse] at hentry
  cases entry with
  | attributeTexts path attr =>
      obtain ⟨visited, hvisits, rfl⟩ := (mem_journal_iff h).mp hentry
      dsimp only at htext
      split at htext
      · next hdotted => exact ⟨path, visited, hvisits, hdotted, htext⟩
      · contradiction
  | title | bundleTexts | identifier | notice => contradiction

/-- Where a visited attribute has a text, some text is written down last. -/
theorem exists_lastText? (h : request.compile options = .ok compiled) {path : Path}
    {attr : Attribute} (hvisits : request.Visits options path attr) {property : TextProperty}
    {text : LocaleText} (htext : (request.prefilled path attr).text? lang property = some text) :
    ∃ last, request.lastText? options lang property path.render = some last := by
  rw [← Option.isSome_iff_exists, lastText?, List.findSome?_isSome_iff]
  refine ⟨_, List.mem_reverse.mpr ((mem_journal_iff h).mpr ⟨attr, hvisits, rfl⟩), ?_⟩
  simp [htext]

/-- The tables of a compilation are those of its journal. -/
theorem replay_journal (h : request.compile options = .ok compiled) :
    (SideTables.forLanguages request.presentation.languages).replay
      (request.walk options).journal = ⟨compiled.locales, compiled.identifiers⟩ := by
  unfold compile compilation at h
  cases houtcome : (request.walk options).outcome with
  | error error => simp [houtcome, Except.map] at h
  | ok form =>
      simp only [houtcome, Except.map, Except.ok.injEq] at h
      rw [← h]

/-- Under the key of a property stands what was written down last at the
dotted path of the key. -/
theorem find?_key (h : request.compile options = .ok compiled)
    (hlang : lang ∈ request.presentation.languages) :
    ∃ locale, compiled.locales.find? lang = some locale ∧
      ∀ place : Path, place.isRoot = false → ∀ property : TextProperty,
        locale.attributes.find? (place.key property.name) =
          request.lastText? options lang property place.render := by
  have hempty := SideTables.find?_locales_forLanguages lang request.presentation.languages
  rw [if_pos hlang] at hempty
  obtain ⟨locale, hlocale, hkeys⟩ := SideTables.find?_replay hempty (request.walk options).journal
  rw [replay_journal h] at hlocale
  refine ⟨locale, hlocale, fun place hplace property => ?_⟩
  rw [hkeys, lastText?, Locale.empty, Dictionary.find?_empty, Option.or_none]
  refine findSome?_congr_of_mem fun entry hentry => ?_
  rw [List.mem_reverse] at hentry
  cases entry with
  | attributeTexts path attr =>
      obtain ⟨visited, hvisits, -⟩ := (mem_journal_iff h).mp hentry
      have hkey : place.key property.name = path.key property.name ↔ path.render = place.render :=
        TextProperty.key_eq_iff.trans (by simp [hplace, hvisits.isRoot_eq, eq_comm])
      rw [JournalEntry.textAt?, Attribute.textAt?_key]
      simp only [hkey]
  | title | bundleTexts | identifier | notice => rfl

/-- Every labelled entry of a compiled form is built from an attribute.  If
the entry is no list and its attribute has a label, an information or labels
of codes in a requested language, then under the key stands what was written
down last at the dotted path of the entry.  This is the text of the attribute
itself, unless an attribute visited at the same dotted path has another one
and that one stands there. -/
theorem entry_texts_recorded (h : request.compile options = .ok compiled)
    (hlang : lang ∈ request.presentation.languages) :
    ∃ locale, compiled.locales.find? lang = some locale ∧
      (∀ path entry, (path, entry) ∈ compiled.form.located → entry.label ≠ none →
        ∃ attr, request.Places options compiled.form ⟨path, attr, entry⟩) ∧
      ∀ path attr entry, request.Places options compiled.form ⟨path, attr, entry⟩ →
        entry.isList = false → ∀ property text,
        (request.prefilled path attr).text? lang property = some text →
        ∃ recorded, locale.attributes.find? (path.key property.name) = some recorded ∧
          request.lastText? options lang property path.render = some recorded ∧
          (recorded = text ∨ recorded ≠ text ∧ ∃ other visited,
            request.Visits options other visited ∧ other.render = path.render ∧
            (request.prefilled other visited).text? lang property = some recorded) := by
  obtain ⟨locale, hlocale, hkeys⟩ := find?_key h hlang
  refine ⟨locale, hlocale, fun path entry => exists_places h, ?_⟩
  intro path attr entry hplaces hlist property text htext
  obtain ⟨-, -, hvisits⟩ := hplaces.sound h
  obtain ⟨recorded, hlast⟩ := exists_lastText? h (hvisits hlist) htext
  refine ⟨recorded, ?_, hlast, ?_⟩
  · rw [hkeys path (hvisits hlist).isRoot_eq, hlast]
  · by_cases hsame : recorded = text
    · exact .inl hsame
    · exact .inr ⟨hsame, exists_visits_of_lastText? h hlast⟩

/-- A form of one field, whose label stands under its key. -/
theorem entry_texts_recorded_of_field :
    let text : Attribute := { Attribute.bare "text" (.scalar (.primitive .text)) with
      labels := .ofList [("eng", "Text")] }
    let request : CompileRequest :=
      { bundle := ⟨"Enote", [text], .empty⟩
        dependencies := []
        presentation :=
          { bundleDigest := "Enote", digest := none, languages := ["eng"]
            pages := [⟨none, none, some "main", [.field "text"]⟩]
            pageOrder := ["main"], pageLabels := .empty, interactions := [] }
        conditionals := .empty
        readonly := [] }
    ∃ compiled locale entry, request.compile default = .ok compiled ∧
      compiled.locales.find? "eng" = some locale ∧
      request.Places default compiled.form ⟨⟨["text"]⟩, text, entry⟩ ∧
      entry.isList = false ∧ locale.attributes.find? "text.label" = some (.text "Text") := by
  intro text request
  have hok : (request.compile default).isOk = true := by decide +kernel
  obtain ⟨compiled, hcompile⟩ := exists_compile_eq_ok hok
  obtain ⟨locale, hlocale, -, htexts⟩ :=
    entry_texts_recorded hcompile (List.mem_singleton_self "eng")
  obtain ⟨-, journal, hfills, -, -⟩ := compile_eq_ok hcompile
  generalize hpages : compiled.form.pages = pages at hfills
  cases hfills with
  | missing missing => contradiction
  | page found addressed inside others =>
      cases found
      cases inside with
      | field found' built others' =>
          cases found'
          have hplaces : request.Places default compiled.form
              ⟨Path.root.child text.name, text, _⟩ :=
            ⟨_, hpages ▸ List.mem_cons_self, _, rfl, .field rfl .self⟩
          obtain ⟨recorded, hfind, hlast, -⟩ :=
            htexts _ _ _ hplaces built.isList_eq .label (.text "Text") (by decide +kernel)
          have hlabel : request.lastText? default "eng" .label (Path.root.child text.name).render =
              some (.text "Text") := by decide +kernel
          obtain rfl := Option.some.inj (hlabel.symm.trans hlast)
          have hkey : (Path.root.child text.name).key TextProperty.label.name = "text.label" := by
            decide
          exact ⟨compiled, locale, _, hcompile, hlocale, hplaces, built.isList_eq, hkey ▸ hfind⟩

/-- A section without attribute and the page of a reference, both named
`contact` and both with a field `phone`: the label of the field that comes
first is lost. -/
theorem label_lost_to_namesake :
    let phone : Attribute := { Attribute.bare "phone" (.scalar (.primitive .text)) with
      labels := .ofList [("eng", "Home phone")] }
    let workPhone : Attribute := { Attribute.bare "phone" (.scalar (.primitive .text)) with
      labels := .ofList [("eng", "Work phone")] }
    let contact : Attribute := Attribute.bare "contact" (.scalar (.reference "Econtact"))
    let request : CompileRequest :=
      { bundle := ⟨"Eperson", [phone, contact], .empty⟩
        dependencies := [⟨"Econtact", [workPhone], .empty⟩]
        presentation :=
          { bundleDigest := "Eperson", digest := none, languages := ["eng"]
            pages := [⟨none, none, some "main",
              [.page ⟨none, none, some "contact", [.field "phone"]⟩,
                .page ⟨none, some "contact", none, [.field "phone"]⟩]⟩]
            pageOrder := ["main"], pageLabels := .empty, interactions := [] }
        conditionals := .empty
        readonly := [] }
    ∃ compiled locale entry, request.compile default = .ok compiled ∧
      "eng" ∈ request.presentation.languages ∧ compiled.locales.find? "eng" = some locale ∧
      request.Places default compiled.form ⟨⟨["contact", "phone"]⟩, phone, entry⟩ ∧
      entry.isList = false ∧ entry.label = some "contact.phone.label" ∧
      (request.prefilled ⟨["contact", "phone"]⟩ phone).text? "eng" .label =
        some (.text "Home phone") ∧
      locale.attributes.find? "contact.phone.label" = some (.text "Work phone") := by
  intro phone workPhone contact request
  have hlost : ((request.compile default).toOption.bind fun compiled =>
      (compiled.locales.find? "eng").bind (·.attributes.find? "contact.phone.label")) =
        some (.text "Work phone") := by decide +kernel
  obtain ⟨compiled, hcompiled, hlocale⟩ := Option.bind_eq_some_iff.mp hlost
  obtain ⟨locale, hlocale, hfind⟩ := Option.bind_eq_some_iff.mp hlocale
  have hcompile : request.compile default = .ok compiled := by
    cases hresult : request.compile default with
    | error error => simp [hresult, Except.toOption] at hcompiled
    | ok value => simpa [hresult, Except.toOption] using hcompiled
  obtain ⟨-, journal, hfills, -, -⟩ := compile_eq_ok hcompile
  generalize hpages : compiled.form.pages = pages at hfills
  cases hfills with
  | missing missing => contradiction
  | page found addressed inside others =>
      cases found
      cases inside with
      | synthetic addressed' inside' others' =>
          cases addressed'
          cases inside' with
          | field found' built others'' =>
              cases found'
              have hplaces : request.Places default compiled.form
                  ⟨(Path.root.child "contact").child phone.name, phone, _⟩ :=
                ⟨_, hpages ▸ List.mem_cons_self, _, rfl, .synthetic rfl (.field rfl .self)⟩
              exact ⟨compiled, locale, _, hcompile, List.mem_singleton_self _, hlocale, hplaces,
                built.isList_eq, built.label_eq.trans (by decide), by decide +kernel, hfind⟩
      | embedded addressed' embeds => cases addressed'; exact absurd rfl (embeds _)
      | list addressed' embeds => cases addressed'; exact absurd rfl (embeds _)

end CompileRequest

end FormCompiler
