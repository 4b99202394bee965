import FormCompiler.Journal

/-!
# FormCompiler.Proofs.LocaleRecords

What a journal does to the dictionaries of one language.  Each line changes
them on its own (`JournalEntry.enterIn`), and nothing of it depends on the
dictionaries of other languages (`SideTables.find?_locales_replay`); the
requested languages have dictionaries, and no others
(`SideTables.isSome_find?_locales_replay_iff`).  When a title is written for
each language of a list, a language receives its own, however often it is
listed (`SideTables.find?_locales_replay_titles`).
-/

namespace FormCompiler

theorem Dictionary.insert_insert {α : Type} (d : Dictionary α) (key : String) (value : α) :
    (d.insert key value).insert key value = d.insert key value := by
  refine ext_find? fun k => ?_
  simp only [find?_insert]
  split <;> rfl

/-- Locales are told by the dictionaries of each language. -/
theorem Locales.ext_find? {locales locales' : Locales}
    (h : ∀ lang, locales.find? lang = locales'.find? lang) : locales = locales' :=
  congrArg Locales.mk (Dictionary.ext_find? h)

namespace JournalEntry

/-- What a line of a journal does to the dictionaries of a language. -/
def enterIn (lang : String) (locale : Locale) : JournalEntry → Locale
  | .attributeTexts path attr => locale.recordAttribute lang path attr
  | .title l key text => if lang = l then locale.recordTitle key text else locale
  | .bundleTexts bundle => locale.recordBundle lang bundle
  | .identifier _ _ | .notice _ => locale

/-- A line about titles in a language: a title, or a notice that there is
none. -/
def IsTitleIn (lang : String) (entry : JournalEntry) : Prop :=
  (∃ key text, entry = .title lang key text) ∨ ∃ notice, entry = .notice notice

namespace IsTitleIn

variable {lang other : String} {entry : JournalEntry} {locale : Locale}

theorem enterIn_of_ne (h : entry.IsTitleIn other) (hne : lang ≠ other) :
    entry.enterIn lang locale = locale := by
  obtain ⟨key, text, rfl⟩ | ⟨notice, rfl⟩ := h
  · exact if_neg hne
  · rfl

/-- A title that is written twice stands as if written once. -/
theorem enterIn_enterIn (h : entry.IsTitleIn other) :
    entry.enterIn lang (entry.enterIn lang locale) = entry.enterIn lang locale := by
  obtain ⟨key, text, rfl⟩ | ⟨notice, rfl⟩ := h
  · simp only [enterIn]
    split
    · simp only [Locale.recordTitle, Dictionary.insert_insert]
    · rfl
  · rfl

theorem identifiers_enter (h : entry.IsTitleIn other) (tables : SideTables) :
    (tables.enter entry).identifiers = tables.identifiers := by
  obtain ⟨key, text, rfl⟩ | ⟨notice, rfl⟩ := h <;> rfl

end IsTitleIn

end JournalEntry

namespace SideTables

variable (tables : SideTables) (lang : String)

/-- A line changes the dictionaries of each language on their own. -/
theorem find?_locales_enter (entry : JournalEntry) :
    (tables.enter entry).locales.find? lang =
      (tables.locales.find? lang).map (entry.enterIn lang) := by
  cases entry with
  | attributeTexts path attr => exact Dictionary.find?_mapWithKey _ _ _
  | title l key text => exact Dictionary.find?_mapWithKey _ _ _
  | bundleTexts bundle => exact Dictionary.find?_mapWithKey _ _ _
  | identifier | notice => exact Option.map_id'.symm

/-- A journal changes the dictionaries of each language line by line. -/
theorem find?_locales_replay (journal : Journal) :
    (tables.replay journal).locales.find? lang =
      (tables.locales.find? lang).map fun locale =>
        journal.foldl (fun locale entry => entry.enterIn lang locale) locale := by
  induction journal generalizing tables with
  | nil => exact Option.map_id'.symm
  | cons entry journal ih =>
      rw [replay, List.foldl_cons, ← replay, ih, find?_locales_enter, Option.map_map]
      rfl

/-- The requested languages have empty dictionaries at first. -/
theorem find?_locales_forLanguages (languages : List String) :
    (forLanguages languages).locales.find? lang =
      if lang ∈ languages then some .empty else none := by
  suffices h : ∀ d : Dictionary Locale,
      ((languages.map fun l => (l, Locale.empty)).foldl (fun d e => d.insert e.1 e.2)
        d).find? lang = if lang ∈ languages then some .empty else d.find? lang from h .empty
  induction languages with
  | nil => exact fun d => rfl
  | cons l languages ih =>
      intro d
      rw [List.map_cons, List.foldl_cons, ih, Dictionary.find?_insert]
      by_cases hlang : lang = l <;> simp [hlang]

/-- There are dictionaries for the requested languages and for no others. -/
theorem isSome_find?_locales_replay_iff (languages : List String) (journal : Journal) :
    (((forLanguages languages).replay journal).locales.find? lang).isSome ↔ lang ∈ languages := by
  rw [find?_locales_replay, Option.isSome_map, find?_locales_forLanguages]
  split <;> simp [*]

section Titles

variable {lang} {languages : List String} {entry : String → JournalEntry}
  (h : ∀ l, (entry l).IsTitleIn l)
include h

/-- Of titles in many languages a language receives its own. -/
theorem find?_locales_replay_titles :
    (tables.replay (languages.map entry)).locales.find? lang =
      if lang ∈ languages then (tables.locales.find? lang).map ((entry lang).enterIn lang)
      else tables.locales.find? lang := by
  induction languages generalizing tables with
  | nil => rfl
  | cons l languages ih =>
      rw [List.map_cons, replay, List.foldl_cons, ← replay, ih, find?_locales_enter]
      by_cases hlang : lang = l
      · subst hlang
        rw [if_pos List.mem_cons_self, Option.map_map]
        split
        · exact congrArg (Option.map · _) (funext fun locale => (h lang).enterIn_enterIn)
        · rfl
      · have hother : (entry l).enterIn lang = id := funext fun locale => (h l).enterIn_of_ne hlang
        simp [hother, hlang]

theorem identifiers_replay_titles :
    (tables.replay (languages.map entry)).identifiers = tables.identifiers := by
  induction languages generalizing tables with
  | nil => rfl
  | cons l languages ih =>
      rw [List.map_cons, replay, List.foldl_cons, ← replay, ih, (h l).identifiers_enter]

end Titles

end SideTables

end FormCompiler
