import FormCompiler.Proofs.LocaleRecords

/-!
# FormCompiler.Proofs.RecordedTexts

What stands under a key of the attribute dictionary of a language once a
journal is replayed: the text that the last entry of the journal for this
key puts there (`SideTables.find?_replay`).  Keys are made of dotted paths, and
a key tells both the text of its path and its property
(`TextProperty.key_eq_iff`).
-/

namespace FormCompiler

/-! ## keys -/

/-- What stands behind the last mark of a list determines the list up to it. -/
theorem append_cons_inj_of_notMem_right {α : Type} {mark : α} {first first' second second' : List α}
    (h : mark ∉ second) (h' : mark ∉ second')
    (heq : first ++ mark :: second = first' ++ mark :: second') :
    first = first' ∧ second = second' := by
  induction first generalizing first' with
  | nil =>
      cases first' with
      | nil => exact ⟨rfl, (List.cons.inj heq).2⟩
      | cons x first' =>
          have hsecond : second = first' ++ mark :: second' := (List.cons.inj heq).2
          exact absurd (hsecond ▸ List.mem_append_right _ List.mem_cons_self) h
  | cons x first ih =>
      cases first' with
      | nil =>
          have hsecond : first ++ mark :: second = second' := (List.cons.inj heq).2
          exact absurd (hsecond ▸ List.mem_append_right _ List.mem_cons_self) h'
      | cons x' first' =>
          obtain ⟨rfl, hrest⟩ := List.cons.inj heq
          obtain ⟨rfl, rfl⟩ := ih hrest
          exact ⟨rfl, rfl⟩

namespace Path

/-- The characters of a key of what stands below the root. -/
theorem toList_key {p : Path} (h : p.isRoot = false) (property : String) :
    (p.key property).toList = p.render.toList ++ '.' :: property.toList := by
  simp [key, h, String.toList_append]

/-- At the root, the key of a property is its name. -/
theorem key_of_isRoot {p : Path} (h : p.isRoot = true) (property : String) :
    p.key property = property := by
  rw [key, if_pos h]

theorem render_of_isRoot {p : Path} (h : p.isRoot = true) : p.render = "" := by
  obtain ⟨names⟩ := p
  obtain rfl : names = [] := List.isEmpty_iff.mp h
  rfl

/-- Keys are equal for the same dotted text and the same property only; the
root and the path of one empty name have the same text, but not the same
keys. -/
theorem key_eq_iff {p q : Path} {s t : String} (hs : '.' ∉ s.toList) (ht : '.' ∉ t.toList) :
    p.key s = q.key t ↔ p.isRoot = q.isRoot ∧ p.render = q.render ∧ s = t := by
  -- A key of the root holds no dot, and any other key has its last one before the property.
  constructor
  · intro h
    have hlist := congrArg String.toList h
    cases hp : p.isRoot with
    | true =>
        rw [key_of_isRoot hp] at hlist
        cases hq : q.isRoot with
        | true =>
            rw [key_of_isRoot hq] at hlist
            exact ⟨rfl, by rw [render_of_isRoot hp, render_of_isRoot hq],
              String.toList_inj.mp hlist⟩
        | false =>
            rw [toList_key hq] at hlist
            exact absurd (hlist ▸ List.mem_append_right _ List.mem_cons_self) hs
    | false =>
        rw [toList_key hp] at hlist
        cases hq : q.isRoot with
        | true =>
            rw [key_of_isRoot hq] at hlist
            exact absurd (hlist ▸ List.mem_append_right _ List.mem_cons_self) ht
        | false =>
            rw [toList_key hq] at hlist
            obtain ⟨hrender, hproperty⟩ := append_cons_inj_of_notMem_right hs ht hlist
            exact ⟨rfl, String.toList_inj.mp hrender, String.toList_inj.mp hproperty⟩
  · rintro ⟨hroot, hrender, rfl⟩
    rw [key, key, hroot, hrender]

end Path

/-! ## one attribute -/

/-- What recording an attribute at a path puts under a key for a language. -/
def Attribute.textAt? (attr : Attribute) (lang : String) (path : Path) (key : String) :
    Option LocaleText :=
  (if key = path.key "entries" then (attr.entries.bind (·.get? lang)).map .entries
    else none).or <|
  (if key = path.key "placeholder" then (attr.informations.get? lang).map .text
    else none).or <|
  if key = path.key "label" then (attr.labels.get? lang).map .text else none

/-- The properties of an attribute that have texts. -/
inductive TextProperty where
  | label
  | placeholder
  | entries
deriving DecidableEq

/-- The last part of the keys of a property. -/
def TextProperty.name : TextProperty → String
  | label => "label"
  | placeholder => "placeholder"
  | entries => "entries"

namespace TextProperty

theorem notMem_name (property : TextProperty) : '.' ∉ property.name.toList := by
  cases property <;> decide

theorem name_inj {property other : TextProperty} :
    property.name = other.name ↔ property = other := by
  cases property <;> cases other <;> decide

/-- Names of properties hold no dot, so a key tells its property and the
dotted text of its path. -/
theorem key_eq_iff {property other : TextProperty} {p q : Path} :
    p.key property.name = q.key other.name ↔
      p.isRoot = q.isRoot ∧ p.render = q.render ∧ property = other := by
  rw [Path.key_eq_iff property.notMem_name other.notMem_name, name_inj]

/-- Different properties never share a key, whatever the paths. -/
theorem key_ne {property other : TextProperty} (h : property ≠ other) (p q : Path) :
    p.key property.name ≠ q.key other.name :=
  fun hkey => h (key_eq_iff.mp hkey).2.2

end TextProperty

def Attribute.text? (attr : Attribute) (lang : String) : TextProperty → Option LocaleText
  | .label => (attr.labels.get? lang).map .text
  | .placeholder => (attr.informations.get? lang).map .text
  | .entries => (attr.entries.bind (·.get? lang)).map .entries

/-- The three properties are written in turn, and what is written last is found
first. -/
theorem Attribute.textAt?_eq (attr : Attribute) (lang : String) (path : Path) (key : String) :
    attr.textAt? lang path key =
      (if key = path.key TextProperty.entries.name then attr.text? lang .entries else none).or
        ((if key = path.key TextProperty.placeholder.name then attr.text? lang .placeholder
          else none).or
        (if key = path.key TextProperty.label.name then attr.text? lang .label else none)) :=
  rfl

/-- Under the key of a property stands a text of this property, and nothing
else. -/
theorem Attribute.textAt?_key (attr : Attribute) (lang : String) (path place : Path)
    (property : TextProperty) :
    attr.textAt? lang path (place.key property.name) =
      if place.key property.name = path.key property.name then attr.text? lang property
      else none := by
  have hne : ∀ other, property ≠ other → place.key property.name ≠ path.key other.name :=
    fun _ h => TextProperty.key_ne h place path
  rw [textAt?_eq]
  cases property with
  | label =>
      rw [if_neg (hne .entries (by decide)), if_neg (hne .placeholder (by decide)),
        Option.none_or, Option.none_or]
  | placeholder =>
      rw [if_neg (hne .entries (by decide)), if_neg (hne .label (by decide)), Option.none_or,
        Option.or_none]
  | entries =>
      rw [if_neg (hne .placeholder (by decide)), if_neg (hne .label (by decide)),
        Option.or_none, Option.or_none]

/-- Under the key of a label stands a label, and nothing else. -/
theorem Attribute.textAt?_label (attr : Attribute) (lang : String) (path place : Path) :
    attr.textAt? lang path (place.key "label") =
      if place.key "label" = path.key "label" then (attr.labels.get? lang).map .text
      else none :=
  attr.textAt?_key lang path place .label

theorem Dictionary.find?_insert? {α : Type} (d : Dictionary α) (key k : String)
    (value : Option α) :
    (d.insert? key value).find? k = (if k = key then value else none).or (d.find? k) := by
  cases value with
  | none => simp [insert?]
  | some value =>
      rw [insert?, find?_insert]
      split <;> simp

/-- Under a key that an attribute writes stands its text, and elsewhere what
stood there before. -/
theorem Locale.find?_recordAttribute (locale : Locale) (lang : String) (path : Path)
    (attr : Attribute) (key : String) :
    (locale.recordAttribute lang path attr).attributes.find? key =
      (attr.textAt? lang path key).or (locale.attributes.find? key) := by
  simp only [recordAttribute, Dictionary.find?_insert?, Attribute.textAt?, Option.or_assoc]

/-! ## a whole journal -/

/-- What a line of a journal puts under a key of the attribute dictionary. -/
def JournalEntry.textAt? (lang key : String) : JournalEntry → Option LocaleText
  | .attributeTexts path attr => attr.textAt? lang path key
  | _ => none

/-- One line changes what it puts a text under, and no other key. -/
theorem JournalEntry.find?_enterIn (entry : JournalEntry) (lang : String) (locale : Locale)
    (key : String) :
    (entry.enterIn lang locale).attributes.find? key =
      (entry.textAt? lang key).or (locale.attributes.find? key) := by
  cases entry with
  | attributeTexts path attr => exact locale.find?_recordAttribute lang path attr key
  | title l titleKey text =>
      simp only [enterIn, textAt?, Option.none_or]
      split <;> rfl
  | bundleTexts | identifier | notice => exact Option.none_or.symm

/-- What is read off the dictionaries of a language is what the last line
that puts something there puts, provided each line does so on its own. -/
theorem Journal.read_foldl_enterIn {α : Type} {lang : String} (read : Locale → Option α)
    (put : JournalEntry → Option α)
    (hput : ∀ entry locale, read (entry.enterIn lang locale) = (put entry).or (read locale))
    (journal : Journal) (locale : Locale) :
    read (journal.foldl (fun locale entry => entry.enterIn lang locale) locale) =
      (journal.reverse.findSome? put).or (read locale) := by
  induction journal generalizing locale with
  | nil => rfl
  | cons entry journal ih =>
      rw [List.foldl_cons, ih, hput, List.reverse_cons, List.findSome?_append, Option.or_assoc]
      simp

/-- Under a key stands the text that the last line of the journal for it put
there, or what stood there before the journal. -/
theorem SideTables.find?_replay {tables : SideTables} {lang : String} {locale : Locale}
    (h : tables.locales.find? lang = some locale) (journal : Journal) :
    ∃ after, (tables.replay journal).locales.find? lang = some after ∧
      ∀ key, after.attributes.find? key =
        (journal.reverse.findSome? (·.textAt? lang key)).or (locale.attributes.find? key) := by
  refine ⟨_, ?_, fun key => journal.read_foldl_enterIn (·.attributes.find? key) _
    (fun entry locale => entry.find?_enterIn lang locale key) locale⟩
  rw [find?_locales_replay, h, Option.map_some]

end FormCompiler
