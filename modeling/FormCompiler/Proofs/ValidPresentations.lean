import FormCompiler.CommandLine.Run
import FormCompiler.Proofs.DistinctKeys
import FormCompiler.Proofs.ListReading
import FormCompiler.Proofs.PresentationRules

/-!
# FormCompiler.Proofs.ValidPresentations

Presentations that the schema accepts can be read.  The readers go through
the fields of an object in document order and stop at the first bad one,
while the schema looks members up by key; both see the same members because
no key of a document that was read stands twice.

Each reader is shown to succeed where the schema of its record holds, from
the entries of pages up to the presentation
(`Presentation.exists_read_of_holds`), and validation hands it exactly such
documents (`CommandLine.exists_presentation_of_runValidate`).  What the schema
says about the naming keys of pages comes along as `PageSpec.IsNamed`.
-/

namespace FormCompiler

/-! ## plain values -/

namespace Json

variable {value : Json}

theorem IsText.exists_toText (h : value.IsText) : ∃ text, value.toText = .ok text := by
  obtain ⟨text, rfl⟩ := h
  exact ⟨text, rfl⟩

theorem IsText.exists_toOptional (h : value.IsText) :
    ∃ text, value.toOptional toText = .ok (some text) := by
  obtain ⟨text, rfl⟩ := h
  exact ⟨text, rfl⟩

theorem exists_toOptional_ok (value : Json) : ∃ kept, value.toOptional .ok = .ok kept := by
  cases value <;> exact ⟨_, rfl⟩

section Collections

open PresentationSchema

variable {lookup : Schema.Lookup} {schema : Schema} {α : Type} (read : Json → Shaped α)
  {Q : α → Prop}

/-- A list of parts is read if each of its parts is. -/
theorem exists_toItems (h : (listOf schema).Holds lookup value)
    (hread : ∀ items, value = .array items → ∀ item ∈ items, schema.Holds lookup item →
      ∃ a, read item = .ok a ∧ Q a) :
    ∃ items, value.toItems read = .ok items ∧ ∀ a ∈ items, Q a := by
  obtain ⟨items, rfl, hitems⟩ := exists_items_of_listOf h
  exact exists_mapM fun item hitem => hread items rfl item hitem (hitems item hitem)

theorem exists_toFields (h : (mapOf schema).Holds lookup value)
    (hread : ∀ fields, value = .object fields → ∀ field ∈ fields,
      schema.Holds lookup field.2 → ∃ a, read field.2 = .ok a) :
    ∃ fields, value.toFields read = .ok fields := by
  obtain ⟨fields, rfl, hfields⟩ := exists_fields_of_mapOf h
  have hall : ∀ field ∈ fields, ∃ entry,
      (do return (field.1, ← read field.2) : Shaped (String × α)) = .ok entry ∧ True := by
    intro field hfield
    obtain ⟨a, ha⟩ := hread fields rfl field hfield (hfields field hfield)
    exact ⟨(field.1, a), by rw [ha]; rfl, trivial⟩
  obtain ⟨entries, hentries, -⟩ := exists_mapM hall
  exact ⟨entries, hentries⟩

end Collections

end Json

/-! ## records -/

namespace FieldReader

variable {σ : Type} {readers : List (FieldReader σ)} {fields : List (String × Json)}
  {P : σ → Prop} {draft : σ}

/-- The reader takes the value into every draft with a property, and the
draft keeps it. -/
def Takes (reader : FieldReader σ) (P : σ → Prop) (value : Json) : Prop :=
  ∀ draft, P draft → ∃ next, reader.read value draft = .ok next ∧ P next

/-- Fields are read in turn if each is taken by its reader, whatever the draft
is by then. -/
theorem exists_readFields
    (h : ∀ reader ∈ readers, ∀ value, (reader.key, value) ∈ fields → reader.Takes P value)
    (hdraft : P draft) : ∃ next, readFields readers fields draft = .ok next ∧ P next := by
  induction fields generalizing draft with
  | nil => exact ⟨draft, rfl, hdraft⟩
  | cons field fields ih =>
      have hrest : ∀ reader ∈ readers, ∀ value, (reader.key, value) ∈ fields →
          reader.Takes P value := fun reader hreader value hvalue =>
        h reader hreader value (List.mem_cons_of_mem _ hvalue)
      rw [readFields, List.foldlM_cons]
      cases hfind : readers.find? (·.key = field.1) with
      | none => exact ih hrest hdraft
      | some reader =>
          have hkey : reader.key = field.1 := by simpa using List.find?_some hfind
          have hfield : (reader.key, field.2) ∈ field :: fields := hkey ▸ List.mem_cons_self
          obtain ⟨next, hnext, hP⟩ :=
            h reader (List.mem_of_find?_eq_some hfind) field.2 hfield draft hdraft
          simp only [hnext]
          exact ih hrest hP

/-- A record is read from an object that has its required members, and each
of whose members its reader takes. -/
theorem exists_readRecord (name : String) (draft : σ) (hkeys : (Json.object fields).DistinctKeys)
    (h : ∀ reader ∈ readers, ∀ value, fields.lookup reader.key = some value →
      reader.Takes P value)
    (hrequired : ∀ reader ∈ readers, reader.isRequired = true →
      (fields.lookup reader.key).isSome = true)
    (hdraft : P draft) :
    ∃ record, readRecord name readers draft (.object fields) = .ok record ∧ P record := by
  obtain ⟨record, hrecord, hP⟩ := exists_readFields (fun reader hreader value hvalue =>
    h reader hreader value (hkeys.lookup_of_mem hvalue)) hdraft
  have hmissing : missing? readers fields = none := by
    rw [missing?, Option.map_eq_none_iff, List.find?_eq_none]
    intro reader hreader
    rw [Bool.and_eq_true, Option.isNone_iff_eq_none]
    rintro ⟨hneeded, hnone⟩
    simpa [hnone] using hrequired reader hreader hneeded
  refine ⟨record, ?_, hP⟩
  simp only [readRecord, hrecord, bind, Except.bind, hmissing]

end FieldReader

/-! ## pages -/

namespace PageSpec

/-- The page and every page within it have a naming key, and none has `nr`
along with `ns`. -/
inductive IsNamed : PageSpec → Prop
  | mk {spec} (named : spec.name.isSome ∨ spec.reference.isSome ∨ spec.synthetic.isSome)
      (apart : ¬ (spec.reference.isSome ∧ spec.synthetic.isSome))
      (within : ∀ inner, .page inner ∈ spec.entries → IsNamed inner) : IsNamed spec

/-- Are all pages among the entries named? -/
def AllNamed (entries : List PageEntry) : Prop := ∀ inner, .page inner ∈ entries → inner.IsNamed

/-- A draft holds what has been read of fields on top of an earlier one. -/
structure Draft.Extends (next draft : Draft) (fields : List (String × Json)) : Prop where
  name : next.name.isSome = (draft.name.isSome || (fields.lookup "n").isSome)
  reference : next.reference.isSome = (draft.reference.isSome || (fields.lookup "nr").isSome)
  synthetic : next.synthetic.isSome = (draft.synthetic.isSome || (fields.lookup "ns").isSome)
  entries : next.entries.isSome = (draft.entries.isSome || (fields.lookup "ao").isSome)
  named : ∀ entries, next.entries = some entries → draft.entries = some entries ∨ AllNamed entries

theorem isSome_lookup_cons (key : String) (field : String × Json) (fields : List (String × Json)) :
    ((field :: fields).lookup key).isSome =
      (([field].lookup key).isSome || (fields.lookup key).isSome) := by
  simp only [lookup_cons_eq, List.lookup_nil]
  split <;> simp

/-- A draft that is extended by a field and then by others is extended by all
of them. -/
theorem Draft.Extends.cons {draft next last : Draft} {field : String × Json}
    {fields : List (String × Json)} (hfirst : next.Extends draft [field])
    (hrest : last.Extends next fields) : last.Extends draft (field :: fields) where
  name := by rw [hrest.name, hfirst.name, isSome_lookup_cons _ field fields, Bool.or_assoc]
  reference := by
    rw [hrest.reference, hfirst.reference, isSome_lookup_cons _ field fields, Bool.or_assoc]
  synthetic := by
    rw [hrest.synthetic, hfirst.synthetic, isSome_lookup_cons _ field fields, Bool.or_assoc]
  entries := by rw [hrest.entries, hfirst.entries, isSome_lookup_cons _ field fields, Bool.or_assoc]
  named entries h := (hrest.named entries h).elim (hfirst.named entries) .inr

/-- One field is read. -/
theorem exists_readField {key : String} {value : Json} (draft : Draft)
    (htext : key ∈ ["n", "nr", "ns"] → value.IsText)
    (hentries : key = "ao" → ∃ entries, readEntries value = .ok entries ∧ AllNamed entries) :
    ∃ next : Draft, next.Extends draft [(key, value)] ∧
      ∀ fields, readFields draft ((key, value) :: fields) = readFields next fields := by
  by_cases hn : key = "n"
  · subst hn
    obtain ⟨text, htext⟩ := (htext (by simp)).exists_toOptional
    refine ⟨{ draft with name := some text }, ?_, fun fields => ?_⟩
    · constructor <;> simp +contextual [lookup_cons_eq]
    · rw [readFields, if_pos rfl, htext]
      rfl
  by_cases hnr : key = "nr"
  · subst hnr
    obtain ⟨text, htext⟩ := (htext (by simp)).exists_toOptional
    refine ⟨{ draft with reference := some text }, ?_, fun fields => ?_⟩
    · constructor <;> simp +contextual [lookup_cons_eq]
    · rw [readFields, if_neg hn, if_pos rfl, htext]
      rfl
  by_cases hns : key = "ns"
  · subst hns
    obtain ⟨text, htext⟩ := (htext (by simp)).exists_toOptional
    refine ⟨{ draft with synthetic := some text }, ?_, fun fields => ?_⟩
    · constructor <;> simp +contextual [lookup_cons_eq]
    · rw [readFields, if_neg hn, if_neg hnr, if_pos rfl, htext]
      rfl
  by_cases hao : key = "ao"
  · subst hao
    obtain ⟨entries, hread, hnamed⟩ := hentries rfl
    refine ⟨{ draft with entries := some entries }, ?_, fun fields => ?_⟩
    · constructor <;> simp [lookup_cons_eq, hnamed]
    · rw [readFields, if_neg hn, if_neg hnr, if_neg hns, if_pos rfl, hread]
      rfl
  · refine ⟨draft, ?_, fun fields => ?_⟩
    · constructor <;> simp +contextual [lookup_cons_eq, Ne.symm hn, Ne.symm hnr, Ne.symm hns,
        Ne.symm hao]
    · rw [readFields, if_neg hn, if_neg hnr, if_neg hns, if_neg hao]

/-- The fields of a page are read if its texts are texts and its entries are
read. -/
theorem exists_readFields {fields : List (String × Json)} (draft : Draft)
    (htexts : ∀ key ∈ ["n", "nr", "ns"], ∀ value, (key, value) ∈ fields → value.IsText)
    (hentries : ∀ value, ("ao", value) ∈ fields →
      ∃ entries, readEntries value = .ok entries ∧ AllNamed entries) :
    ∃ next : Draft, readFields draft fields = .ok next ∧ next.Extends draft fields := by
  induction fields generalizing draft with
  | nil => exact ⟨draft, by rw [readFields], by constructor <;> simp +contextual⟩
  | cons field fields ih =>
      obtain ⟨key, value⟩ := field
      obtain ⟨next, hfirst, hread⟩ := exists_readField draft
        (fun hkey => htexts key hkey value List.mem_cons_self)
        (fun hkey => hentries value (hkey ▸ List.mem_cons_self))
      obtain ⟨last, hlast, hrest⟩ := ih next
        (fun key hkey value hvalue => htexts key hkey value (List.mem_cons_of_mem _ hvalue))
        (fun value hvalue => hentries value (List.mem_cons_of_mem _ hvalue))
      exact ⟨last, by rw [hread, hlast], hfirst.cons hrest⟩

/-- A page that is read is read as an entry too. -/
theorem readEntry_of_read {value : Json} {spec : PageSpec} (h : read value = .ok spec) :
    readEntry value = .ok (.page spec) := by
  cases value <;> simp only [read, reduceCtorEq] at h
  · rw [readEntry, h, asEntry]
  · rw [readEntry, h, asEntry]

/-- Entries are read if each of them is, and their pages are named if each is.
-/
theorem exists_readEntryList {items : List Json}
    (h : ∀ item ∈ items, ∃ entry, readEntry item = .ok entry ∧
      ∀ inner, entry = .page inner → inner.IsNamed) :
    ∃ entries, readEntryList items = .ok entries ∧ AllNamed entries := by
  induction items with
  | nil => exact ⟨[], by rw [readEntryList], by simp [AllNamed]⟩
  | cons item items ih =>
      obtain ⟨⟨entry, hentry, hnamed⟩, hrest⟩ := List.forall_mem_cons.mp h
      obtain ⟨entries, hentries, hall⟩ := ih hrest
      refine ⟨entry :: entries, ?_, fun inner hinner => ?_⟩
      · rw [readEntryList, hentry, hentries]
        rfl
      · obtain heq | hinner := List.mem_cons.mp hinner
        · exact hnamed inner heq.symm
        · exact hall inner hinner

/-- A page that holds to the schema is read.  A page within it holds with one
step less, and is two levels less deep: the list of entries is in between. -/
theorem exists_read_of_holds {steps : Nat} {value : Json} (hdepth : value.depth ≤ steps)
    (hkeys : value.DistinctKeys)
    (h : PresentationSchema.page.Holds (presentationSchema.lookup steps) value) :
    ∃ spec, read value = .ok spec ∧ spec.IsNamed := by
  induction steps generalizing value with
  | zero =>
      obtain ⟨fields, -, rfl, -⟩ := PresentationSchema.exists_fields_of_page h
      simp [Json.depth] at hdepth
  | succ steps ih =>
      obtain ⟨fields, items, rfl, hao, htexts, hitems, hnamed, happart⟩ :=
        PresentationSchema.exists_fields_of_page h
      have hlist : (Json.array items).DistinctKeys := hkeys.of_lookup hao
      have hentry : ∀ item ∈ items, ∃ entry, readEntry item = .ok entry ∧
          ∀ inner, entry = .page inner → inner.IsNamed := by
        intro item hitem
        obtain ⟨text, rfl⟩ | hpage := hitems item hitem
        · exact ⟨.field text, by rw [readEntry], by simp⟩
        · have hless : item.depth ≤ steps := by
            have := Json.depth_lt_of_mem_items hitem
            have := Json.depth_lt_of_lookup hao
            omega
          obtain ⟨spec, hspec, hspecNamed⟩ := ih hless (hlist.of_mem_items hitem)
            (SchemaDocument.holds_ref rfl hpage)
          refine ⟨.page spec, readEntry_of_read hspec, fun inner hinner => ?_⟩
          obtain rfl := PageEntry.page.inj hinner
          exact hspecNamed
      obtain ⟨entries, hentries, hall⟩ := exists_readEntryList hentry
      obtain ⟨draft, hdraft, hextends⟩ := exists_readFields .blank
        (fun key hkey value hvalue => htexts key hkey value (hkeys.lookup_of_mem hvalue))
        (fun value hvalue => by
          obtain rfl := Option.some.inj (hao.symm.trans (hkeys.lookup_of_mem hvalue))
          exact ⟨entries, by rw [readEntries, hentries], hall⟩)
      obtain ⟨taken, htaken⟩ := Option.isSome_iff_exists.mp (hextends.entries.trans (by simp [hao]))
      refine ⟨⟨draft.name, draft.reference, draft.synthetic, taken⟩, ?_, .mk ?_ ?_ ?_⟩
      · simp only [read, hdraft, bind, Except.bind, Draft.finish, htaken]
      · simpa [hextends.name, hextends.reference, hextends.synthetic, Draft.blank] using hnamed
      · simpa [hextends.reference, hextends.synthetic, Draft.blank] using happart
      · exact (hextends.named taken htaken).resolve_left (by simp [Draft.blank])

end PageSpec

/-! ## hints and interactions -/

namespace Hints

variable {key : String} {value : Json}

theorem textReader_takes (set : Option String → Hints → Hints) (h : value.IsText) :
    (textReader key set).Takes (fun _ => True) value := by
  intro draft _
  obtain ⟨text, htext⟩ := h.exists_toOptional
  exact ⟨set (some text) draft, by simp only [textReader, htext]; rfl, trivial⟩

theorem rawReader_takes (set : Option Json → Hints → Hints) :
    (rawReader key set).Takes (fun _ => True) value := by
  intro draft _
  obtain ⟨kept, hkept⟩ := value.exists_toOptional_ok
  exact ⟨set kept draft, by simp only [rawReader, hkept]; rfl, trivial⟩

/-- Hints that hold to the schema are read. -/
theorem exists_read_of_holds {lookup : Schema.Lookup} (hkeys : value.DistinctKeys)
    (h : PresentationSchema.hints.Holds lookup value) : ∃ hints, read value = .ok hints := by
  obtain ⟨fields, rfl, htexts⟩ := PresentationSchema.exists_fields_of_hints h
  have htakes : ∀ reader ∈ readers, ∀ value, fields.lookup reader.key = some value →
      reader.Takes (fun _ => True) value := by
    have htext : ∀ key ∈ ["t", "va", "answer"], ∀ set value, fields.lookup key = some value →
        (textReader key set).Takes (fun _ => True) value := fun key hkey set value hvalue =>
      textReader_takes set (htexts key hkey value hvalue)
    have hraw : ∀ key set value, fields.lookup key = some value →
        (rawReader key set).Takes (fun _ => True) value := fun _ set _ _ => rawReader_takes set
    simp only [readers, List.forall_mem_cons]
    exact ⟨htext "t" (by simp) _, hraw "o" _, htext "va" (by simp) _, hraw "r" _, hraw "s" _,
      hraw "m" _, htext "answer" (by simp) _, hraw "id" _, hraw "idt" _,
      hraw "on_item_remove" _, by simp⟩
  have hrequired : ∀ reader ∈ readers, reader.isRequired = true →
      (fields.lookup reader.key).isSome = true := by
    simp [readers, textReader, rawReader]
  obtain ⟨hints, hread, -⟩ :=
    FieldReader.exists_readRecord "AttributeHints" none hkeys htakes hrequired trivial
  exact ⟨hints, hread⟩

end Hints

namespace Interaction

/-- An interaction that holds to the schema is read. -/
theorem exists_read_of_holds {steps : Nat} {value : Json} (hkeys : value.DistinctKeys)
    (h : PresentationSchema.interaction.Holds (presentationSchema.lookup (steps + 1)) value) :
    ∃ interaction, read value = .ok interaction := by
  obtain ⟨fields, rfl, htexts, hhints⟩ := PresentationSchema.exists_fields_of_interaction h
  have htext : ∀ key ∈ ["m", "c"], ∀ value, fields.lookup key = some value →
      ∃ text, value.toText = .ok text := by
    intro key hkey value hvalue
    obtain ⟨text, htext⟩ := htexts key hkey
    obtain rfl := Option.some.inj (htext.symm.trans hvalue)
    exact ⟨text, rfl⟩
  have htakes : ∀ reader ∈ readers, ∀ value, fields.lookup reader.key = some value →
      reader.Takes (fun _ => True) value := by
    simp only [readers, List.forall_mem_cons]
    refine ⟨fun value hvalue draft _ => ?_, fun value hvalue draft _ => ?_,
      fun value hvalue draft _ => ?_, by simp⟩
    · obtain ⟨text, htext⟩ := htext "m" (by simp) value hvalue
      exact ⟨{ draft with medium := text }, by simp only [htext]; rfl, trivial⟩
    · obtain ⟨text, htext⟩ := htext "c" (by simp) value hvalue
      exact ⟨{ draft with context := text }, by simp only [htext]; rfl, trivial⟩
    · obtain ⟨entries, hentries⟩ := Json.exists_toFields Hints.read (hhints value hvalue)
        fun fields hfields field hfield hholds =>
          Hints.exists_read_of_holds ((hfields ▸ hkeys.of_lookup hvalue).of_mem_fields hfield)
            (SchemaDocument.holds_ref rfl hholds)
      exact ⟨{ draft with hints := .ofList entries }, by simp only [hentries]; rfl, trivial⟩
  have hrequired : ∀ reader ∈ readers, reader.isRequired = true →
      (fields.lookup reader.key).isSome = true := by
    obtain ⟨medium, hmedium⟩ := htexts "m" (by simp)
    obtain ⟨context, hcontext⟩ := htexts "c" (by simp)
    simp only [readers, List.forall_mem_cons, hmedium, hcontext]
    simp
  obtain ⟨interaction, hread, -⟩ := FieldReader.exists_readRecord "Interaction"
    ⟨"", "", .empty⟩ hkeys htakes hrequired trivial
  exact ⟨interaction, hread⟩

end Interaction

/-! ## presentations -/

namespace Presentation

/-- Are the pages named, and the pages within them? -/
def IsNamed (p : Presentation) : Prop := ∀ spec ∈ p.pages, spec.IsNamed

theorem exists_toItems_toText {value : Json}
    (h : ∃ items, value = .array items ∧ ∀ item ∈ items, item.IsText) :
    ∃ texts, value.toItems Json.toText = .ok texts := by
  obtain ⟨items, rfl, hitems⟩ := h
  obtain ⟨texts, htexts, -⟩ := exists_mapM (Q := fun _ => True) fun item hitem => by
    obtain ⟨text, htext⟩ := (hitems item hitem).exists_toText
    exact ⟨text, htext, trivial⟩
  exact ⟨texts, htexts⟩

theorem exists_readTitles {lookup : Schema.Lookup} {value : Json}
    (h : (PresentationSchema.mapOf PresentationSchema.text).Holds lookup value) :
    ∃ titles, readTitles value = .ok titles := by
  obtain ⟨titles, htitles⟩ := Json.exists_toFields Json.toText h
    fun _ _ _ _ htext => (PresentationSchema.isText_of_text htext).exists_toText
  exact ⟨.ofList titles, by rw [readTitles, htitles]; rfl⟩

/-- A presentation that the schema accepts is read. -/
theorem exists_read_of_accepts {value : Json} (hkeys : value.DistinctKeys)
    (h : presentationSchema.accepts value = true) :
    ∃ p, read value = .ok p ∧ p.IsNamed := by
  obtain ⟨fields, rfl, hneeded, htexts, hlists, hpages, htitles, hinteractions⟩ :=
    PresentationSchema.exists_fields_of_presentation (SchemaDocument.accepts_iff.mp h)
  -- Pages are nested, so their reader needs the depth that the schema unfolds to.
  have hdepth : ∀ value, fields.lookup "p" = some value → ∀ items, value = .array items →
      ∀ item ∈ items, item.depth ≤ (Json.object fields).depth := by
    rintro _ hvalue items rfl item hitem
    have := Json.depth_lt_of_mem_items hitem
    have := Json.depth_lt_of_lookup hvalue
    omega
  have htakes : ∀ reader ∈ readers, ∀ value, fields.lookup reader.key = some value →
      reader.Takes IsNamed value := by
    simp only [readers, List.forall_mem_cons]
    refine ⟨fun value hvalue draft hdraft => ?_, fun value hvalue draft hdraft => ?_,
      fun value hvalue draft hdraft => ?_, fun value hvalue draft hdraft => ?_,
      fun value hvalue draft hdraft => ?_, fun value hvalue draft hdraft => ?_,
      fun value hvalue draft hdraft => ?_, by simp⟩
    · obtain ⟨text, htext⟩ := (htexts "bd" (by simp) value hvalue).exists_toText
      exact ⟨{ draft with bundleDigest := text }, by simp only [htext]; rfl, hdraft⟩
    · obtain ⟨text, htext⟩ := (htexts "d" (by simp) value hvalue).exists_toOptional
      exact ⟨{ draft with digest := some text }, by simp only [htext]; rfl, hdraft⟩
    · obtain ⟨texts, hread⟩ := exists_toItems_toText (hlists "l" (by simp) value hvalue)
      exact ⟨{ draft with languages := texts }, by simp only [hread]; rfl, hdraft⟩
    · obtain ⟨pages, hread, hnamed⟩ := Json.exists_toItems PageSpec.read
        (hpages value hvalue) fun items hitems item hitem hholds =>
          PageSpec.exists_read_of_holds (hdepth value hvalue items hitems item hitem)
            ((hitems ▸ hkeys.of_lookup hvalue).of_mem_items hitem)
            (SchemaDocument.holds_ref rfl hholds)
      exact ⟨{ draft with pages }, by simp only [hread]; rfl, hnamed⟩
    · obtain ⟨texts, hread⟩ := exists_toItems_toText (hlists "po" (by simp) value hvalue)
      exact ⟨{ draft with pageOrder := texts }, by simp only [hread]; rfl, hdraft⟩
    · obtain ⟨titles, hread⟩ := Json.exists_toFields readTitles (htitles value hvalue)
        fun _ _ _ _ hholds => exists_readTitles hholds
      exact ⟨{ draft with pageLabels := .ofList titles }, by simp only [hread]; rfl, hdraft⟩
    · obtain ⟨interactions, hread, -⟩ := Json.exists_toItems Interaction.read
        (Q := fun _ => True) (hinteractions value hvalue) fun items hitems item hitem hholds => by
          obtain ⟨interaction, hread⟩ := Interaction.exists_read_of_holds
            ((hitems ▸ hkeys.of_lookup hvalue).of_mem_items hitem)
            (SchemaDocument.holds_ref rfl hholds)
          exact ⟨interaction, hread, trivial⟩
      exact ⟨{ draft with interactions }, by simp only [hread]; rfl, hdraft⟩
  have hrequired : ∀ reader ∈ readers, reader.isRequired = true →
      (fields.lookup reader.key).isSome = true := by
    simp only [List.forall_mem_cons] at hneeded
    simp only [readers, List.forall_mem_cons]
    exact ⟨fun _ => hneeded.1, by simp⟩
  exact FieldReader.exists_readRecord "Presentation" blank hkeys htakes hrequired
    (by simp [IsNamed, blank])

end Presentation

/-! ## validation -/

namespace CommandLine

variable {path : String} {manner : Manner} {read : ReadFile}

/-- Whatever is read from a file has distinct keys. -/
theorem distinctKeys_of_readJson {value : Json} (h : readJson read path = .ok value) :
    value.DistinctKeys := by
  unfold readJson at h
  split at h
  · contradiction
  · split at h
    · contradiction
    · next hread =>
        obtain rfl := Except.ok.inj h
        exact Json.distinctKeys_of_read hread

/-- Validation succeeds on documents without violations only. -/
theorem exists_accepted_of_runValidate (h : (runValidate path manner read).code = 0) :
    ∃ value, readJson read path = .ok value ∧ presentationSchema.accepts value = true := by
  unfold runValidate at h
  split at h
  · simp [Manner.failure, Report.failure] at h
  · next value hvalue =>
      refine ⟨value, hvalue, ?_⟩
      split at h
      · next hnone => rw [SchemaDocument.accepts, hnone, List.isEmpty_nil]
      · simp [Manner.violationFailure, Report.failure] at h

/-- A document that was validated is read as a presentation, and its pages
are named. -/
theorem exists_presentation_of_runValidate (h : (runValidate path manner read).code = 0) :
    ∃ value p, readJson read path = .ok value ∧ Presentation.ofJson value = .ok p ∧
      p.IsNamed := by
  obtain ⟨value, hvalue, haccepts⟩ := exists_accepted_of_runValidate h
  obtain ⟨p, hp, hnamed⟩ :=
    Presentation.exists_read_of_accepts (distinctKeys_of_readJson hvalue) haccepts
  exact ⟨value, p, hvalue, by rw [Presentation.ofJson, hp]; rfl, hnamed⟩

/-- Arguments that name a validation run it, and leave the directory as it was.
-/
theorem runIn_validate {tree : FileTree} {arguments : List String} {now : Timestamp}
    (h : Invocation.ofArguments arguments = .ok ⟨manner, .validate path⟩) :
    runIn tree arguments now = (runValidate path manner tree.read, tree) := by
  rw [runIn, run, h]
  rfl

/-- A run of `validate` that ends well has found a document that the
compiler reads as a presentation. -/
theorem validated_presentation_reads {tree : FileTree} {arguments : List String} {now : Timestamp}
    (harguments : Invocation.ofArguments arguments = .ok ⟨manner, .validate path⟩)
    (hcode : (runIn tree arguments now).1.code = 0) :
    ∃ value p, readJson tree.read path = .ok value ∧ Presentation.ofJson value = .ok p := by
  rw [runIn_validate harguments] at hcode
  obtain ⟨value, p, hvalue, hp, -⟩ := exists_presentation_of_runValidate hcode
  exact ⟨value, p, hvalue, hp⟩

/-- A page within a page, and a member that no reader knows. -/
theorem validated_presentation_reads_of_nested :
    let nested := Json.object [("nr", .string "b"), ("ao", .array [])]
    let main := Json.object [("ns", .string "p"), ("ao", .array [.string "a", nested])]
    let document := Json.object
      [("bd", .string "E"), ("x", .null), ("p", .array [main]), ("po", .array [.string "p"])]
    let tree := FileTree.ofList [("p.json", document.compact.toUTF8)]
    Invocation.ofArguments ["validate", "p.json"] = .ok ⟨⟨.text, false⟩, .validate "p.json"⟩ ∧
      (runIn tree ["validate", "p.json"] .unixEpoch).1.code = 0 ∧
      ∃ value p, readJson tree.read "p.json" = .ok value ∧ Presentation.ofJson value = .ok p := by
  intro nested main document tree
  have harguments : Invocation.ofArguments ["validate", "p.json"] =
      .ok ⟨⟨.text, false⟩, .validate "p.json"⟩ := by rfl
  have hcode : (runIn tree ["validate", "p.json"] .unixEpoch).1.code = 0 := by decide +kernel
  exact ⟨harguments, hcode, validated_presentation_reads harguments hcode⟩

end CommandLine

end FormCompiler
