import FormCompiler.Proofs.LocaleRecords
import FormCompiler.Proofs.PairedCompilations

/-!
# FormCompiler.Proofs.RequestedLanguages

Languages do not get in each other's way.  Presentations that differ in the
requested languages and in the page titles have the same form and list
identifiers, and a language for which both ask, with the same titles, has
the same dictionaries under both
(`CompileRequest.languages_independent`).
-/

namespace FormCompiler

/-- Tables with the same identifiers, and with the same dictionaries for
some languages. -/
def SideTables.AgreeOn (shared : String → Prop) (tables tables' : SideTables) : Prop :=
  tables.identifiers = tables'.identifiers ∧
    ∀ lang, shared lang → tables.locales.find? lang = tables'.locales.find? lang

section Effects

variable {shared : String → Prop}

/-- What a line does to identifiers does not depend on the dictionaries. -/
theorem SideTables.identifiers_enter_congr {tables tables' : SideTables}
    (h : tables.identifiers = tables'.identifiers) (entry : JournalEntry) :
    (tables.enter entry).identifiers = (tables'.enter entry).identifiers := by
  cases entry with
  | identifier path ident => exact congrArg (·.record path ident) h
  | attributeTexts | title | bundleTexts | notice => exact h

/-- A line keeps tables in agreement on the shared languages. -/
theorem Journal.sameEffect_agreeOn (entry : JournalEntry) :
    Journal.SameEffect (SideTables.AgreeOn shared) [entry] [entry] := by
  intro tables tables' ⟨hidentifiers, hlocales⟩
  refine ⟨SideTables.identifiers_enter_congr hidentifiers entry, fun lang hlang => ?_⟩
  exact (tables.find?_locales_enter lang entry).trans
    (hlocales lang hlang ▸ (tables'.find?_locales_enter lang entry).symm)

/-- Titles in two lists of languages have the same effect on the languages
that are in both lists and have the same title. -/
theorem Journal.sameEffect_titles {languages languages' : List String}
    {entry entry' : String → JournalEntry} (htitles : ∀ l, (entry l).IsTitleIn l)
    (htitles' : ∀ l, (entry' l).IsTitleIn l)
    (hshared : ∀ lang, shared lang →
      lang ∈ languages ∧ lang ∈ languages' ∧ entry lang = entry' lang) :
    Journal.SameEffect (SideTables.AgreeOn shared) (languages.map entry)
      (languages'.map entry') := by
  intro tables tables' ⟨hidentifiers, hlocales⟩
  constructor
  · rw [SideTables.identifiers_replay_titles _ htitles,
      SideTables.identifiers_replay_titles _ htitles', hidentifiers]
  · intro lang hlang
    obtain ⟨hmem, hmem', hentry⟩ := hshared lang hlang
    rw [SideTables.find?_locales_replay_titles _ htitles, if_pos hmem,
      SideTables.find?_locales_replay_titles _ htitles', if_pos hmem', hentry, hlocales lang hlang]

end Effects

/-! ## titles of pages -/

namespace Walker

variable (w : Walker)

theorem isTitleIn_pageTitleEntry (page lang : String) :
    (w.pageTitleEntry page lang).IsTitleIn lang := by
  unfold pageTitleEntry
  split
  · exact .inr ⟨_, rfl⟩
  · split
    · exact .inl ⟨_, _, rfl⟩
    · exact .inr ⟨_, rfl⟩

theorem isTitleIn_syntheticTitleEntry (page key lang : String) :
    (w.syntheticTitleEntry page key lang).IsTitleIn lang := by
  unfold syntheticTitleEntry
  split
  · exact .inl ⟨_, _, rfl⟩
  · exact .inr ⟨_, rfl⟩

theorem isTitleIn_referenceTitleEntry (attr : Attribute) (key lang : String) :
    (referenceTitleEntry attr key lang).IsTitleIn lang := by
  unfold referenceTitleEntry
  split
  · exact .inl ⟨_, _, rfl⟩
  · exact .inr ⟨_, rfl⟩

end Walker

/-! ## two presentations -/

namespace CompileRequest

variable (request : CompileRequest) (languages : List String)
  (labels : Dictionary (Dictionary String))

def inLanguages : CompileRequest :=
  { request with presentation := { request.presentation with languages, pageLabels := labels } }

/-- Both presentations ask for the language, with the same titles. -/
def SharesLanguage (lang : String) : Prop :=
  lang ∈ request.presentation.languages ∧ lang ∈ languages ∧
    request.presentation.pageLabels.find? lang = labels.find? lang

/-- Other languages and titles make no difference to a walker but in what it
writes down about titles. -/
theorem indistinct_inLanguages (options : CompileOptions) :
    (request.resolvedWalker options).Indistinct .full
      (SideTables.AgreeOn (request.SharesLanguage languages labels)) (fun _ => True)
      ((request.inLanguages languages labels).resolvedWalker options) where
  written := Journal.sameEffect_agreeOn
  pageTitles page := by
    refine Journal.sameEffect_titles (Walker.isTitleIn_pageTitleEntry _ page)
      (Walker.isTitleIn_pageTitleEntry _ page) fun lang ⟨hmem, hmem', hlabels⟩ => ⟨hmem, hmem', ?_⟩
    unfold Walker.pageTitleEntry
    simp only [resolvedWalker, walker, inLanguages, hlabels]
  syntheticTitles page key := by
    refine Journal.sameEffect_titles (Walker.isTitleIn_syntheticTitleEntry _ page key)
      (Walker.isTitleIn_syntheticTitleEntry _ page key)
      fun lang ⟨hmem, hmem', hlabels⟩ => ⟨hmem, hmem', ?_⟩
    unfold Walker.syntheticTitleEntry Presentation.pageLabel?
    simp only [resolvedWalker, walker, inLanguages, hlabels]
  referenceTitles attr key :=
    Journal.sameEffect_titles (Walker.isTitleIn_referenceTitleEntry attr key)
      (Walker.isTitleIn_referenceTitleEntry attr key)
      fun lang ⟨hmem, hmem', _⟩ => ⟨hmem, hmem', rfl⟩
  interaction := rfl
  findPage? _ := rfl
  dependency? _ _ := rfl
  held _ _ := trivial
  conditionals _ := rfl
  readonly _ := rfl
  now _ := rfl

/-- With other languages and titles, the form is the same and the tables agree
on the shared languages. -/
theorem sameResult_inLanguages (options : CompileOptions) :
    SameResult .full (SideTables.AgreeOn (request.SharesLanguage languages labels))
      (request.compile options) ((request.inLanguages languages labels).compile options) := by
  refine Paired.sameResult ⟨rfl, rfl, rfl, rfl, fun _ => ⟨fun _ => True, trivial, ?_⟩, rfl, ?_⟩
  · exact request.indistinct_inLanguages languages labels options
  · intro lang ⟨hmem, hmem', _⟩
    rw [SideTables.find?_locales_forLanguages, if_pos hmem,
      SideTables.find?_locales_forLanguages, inLanguages, if_pos hmem']

/-- A compiled form has dictionaries for the requested languages, and for no
others. -/
theorem isSome_find?_locales_iff {request : CompileRequest} {options : CompileOptions}
    {compiled : CompiledForm} (h : request.compile options = .ok compiled) (lang : String) :
    (compiled.locales.find? lang).isSome ↔ lang ∈ request.presentation.languages := by
  obtain ⟨-, journal, -, -, htables⟩ := compile_eq_ok h
  rw [← SideTables.isSome_find?_locales_replay_iff lang _
    (journal ++ [.bundleTexts request.bundle]), htables]

/-- Other languages and page titles leave the result as it is, but for the
dictionaries of languages for which only one presentation asks or of which
the titles differ. -/
theorem languages_independent (options : CompileOptions) :
    (∃ error, request.compile options = .error error ∧
      (request.inLanguages languages labels).compile options = .error error) ∨
    ∃ first second, request.compile options = .ok first ∧
      (request.inLanguages languages labels).compile options = .ok second ∧
      first.form = second.form ∧ first.identifiers = second.identifiers ∧
      (∀ lang, (first.locales.find? lang).isSome ↔ lang ∈ request.presentation.languages) ∧
      (∀ lang, (second.locales.find? lang).isSome ↔ lang ∈ languages) ∧
      ∀ lang, lang ∈ request.presentation.languages → lang ∈ languages →
        request.presentation.pageLabels.find? lang = labels.find? lang →
        first.locales.find? lang = second.locales.find? lang := by
  obtain herror | ⟨first, second, hfirst, hsecond, hform, hidentifiers, hlocales⟩ :=
    (request.sameResult_inLanguages languages labels options).error_or_ok
  · exact .inl herror
  · rw [Form.observed_full, Form.observed_full] at hform
    exact .inr ⟨first, second, hfirst, hsecond, hform, hidentifiers,
      isSome_find?_locales_iff hfirst, isSome_find?_locales_iff hsecond,
      fun lang hmem hmem' hlabels => hlocales lang ⟨hmem, hmem', hlabels⟩⟩

/-- Two presentations that both ask for French: its titles are the same
under both, though one of them is in English as well and the other in
German. -/
theorem languages_independent_of_shared :
    let french := Dictionary.ofList [("main", "Personne"), ("home", "Domicile")]
    let request : CompileRequest :=
      { bundle := ⟨"Eperson", [.bare "name" (.scalar (.primitive .text))], .empty⟩
        dependencies := []
        presentation :=
          { bundleDigest := "Eperson", digest := none, languages := ["eng", "fra"]
            pages := [⟨none, none, some "main",
              [.page ⟨none, none, some "home", [.field "name"]⟩]⟩]
            pageOrder := ["main"]
            pageLabels := .ofList [("eng", .ofList [("main", "Person")]), ("fra", french)]
            interactions := [] }
        conditionals := .empty
        readonly := [] }
    let other := request.inLanguages ["fra", "deu", "fra"] (.ofList [("fra", french)])
    let title := fun compiled : CompiledForm =>
      (compiled.locales.find? "fra").bind (·.pages.find? "page.home.title")
    ∃ first second, request.compile default = .ok first ∧ other.compile default = .ok second ∧
      first.form = second.form ∧
      (first.locales.find? "eng").isSome = true ∧ second.locales.find? "eng" = none ∧
      first.locales.find? "fra" = second.locales.find? "fra" ∧ title first = some "Domicile" := by
  intro french request other title
  have htitle : ((request.compile default).toOption.any (title · = some "Domicile")) = true := by
    decide +kernel
  rcases request.languages_independent ["fra", "deu", "fra"] (.ofList [("fra", french)]) default
    with ⟨error, hfirst, -⟩ | ⟨first, second, hfirst, hsecond, hform, -, hasked, hother, hshared⟩
  · rw [hfirst] at htitle
    contradiction
  · rw [hfirst] at htitle
    refine ⟨first, second, hfirst, hsecond, hform, (hasked "eng").mpr (by decide), ?_,
      hshared "fra" (by decide) (by decide) (by decide +kernel), of_decide_eq_true htitle⟩
    exact Option.not_isSome_iff_eq_none.mp fun h => absurd ((hother "eng").mp h) (by decide)

end CompileRequest

end FormCompiler
