import FormCompiler.Presentation.Schema
import FormCompiler.Proofs.SchemaRules

/-!
# FormCompiler.Proofs.PresentationRules

What the schema of presentations says of the members of a document: which
of them are there, which are texts, and which are lists or maps of parts
that hold to a schema of their own.
-/

namespace FormCompiler

def Json.IsText (value : Json) : Prop := ∃ text, value = .string text

namespace PresentationSchema

open Schema

variable {lookup : Lookup} {value : Json} {schema : Schema}

/-! ## values -/

theorem isText_of_text (h : text.Holds lookup value) : value.IsText := eq_string_of_type h

/-- A text that must not be empty is a text. -/
theorem isText_of_nonEmptyText (h : nonEmptyText.Holds lookup value) : value.IsText := by
  simp only [nonEmptyText, holds_all, List.forall_mem_cons] at h
  exact eq_string_of_type h.1

theorem exists_items_of_listOf (h : (listOf schema).Holds lookup value) :
    ∃ items, value = .array items ∧ ∀ item ∈ items, schema.Holds lookup item := by
  simp only [listOf, holds_all, List.forall_mem_cons] at h
  obtain ⟨htype, hitems, -⟩ := h
  obtain ⟨items, rfl⟩ := eq_array_of_type htype
  exact ⟨items, rfl, holds_items.mp hitems⟩

theorem exists_fields_of_mapOf (h : (mapOf schema).Holds lookup value) :
    ∃ fields, value = .object fields ∧ ∀ field ∈ fields, schema.Holds lookup field.2 := by
  simp only [mapOf, holds_all, List.forall_mem_cons] at h
  obtain ⟨htype, hfields, -⟩ := h
  obtain ⟨fields, rfl⟩ := eq_object_of_type htype
  exact ⟨fields, rfl, holds_additionalProperties.mp hfields⟩

/-! ## records -/

/-- What the schema says of a page. -/
theorem exists_fields_of_page (h : page.Holds lookup value) :
    ∃ fields entries, value = .object fields ∧ fields.lookup "ao" = some (.array entries) ∧
      (∀ key ∈ ["n", "nr", "ns"], ∀ value, fields.lookup key = some value → value.IsText) ∧
      (∀ entry ∈ entries, entry.IsText ∨ (ref "page").Holds lookup entry) ∧
      (∃ key ∈ ["n", "nr", "ns"], (fields.lookup key).isSome) ∧
      ¬ ((fields.lookup "nr").isSome ∧ (fields.lookup "ns").isSome) := by
  simp only [page, holds_all, List.forall_mem_cons] at h
  obtain ⟨htype, hrequired, hmembers, hnamed, hnot, -⟩ := h
  obtain ⟨fields, rfl⟩ := eq_object_of_type htype
  simp only [holds_properties, List.forall_mem_cons] at hmembers
  obtain ⟨hn, hnr, hns, hao, -⟩ := hmembers
  simp only [holds_required, List.forall_mem_cons] at hrequired
  obtain ⟨list, hlist⟩ := Option.isSome_iff_exists.mp hrequired.1
  obtain ⟨entries, rfl, hentries⟩ := exists_items_of_listOf (hao list hlist)
  refine ⟨fields, entries, rfl, hlist, ?_, fun entry hentry => ?_, ?_, ?_⟩
  · simp only [List.forall_mem_cons]
    exact ⟨fun value h => isText_of_text (hn value h), fun value h => isText_of_text (hnr value h),
      fun value h => isText_of_text (hns value h), by simp⟩
  · obtain ⟨schema, hschema, hholds⟩ := exists_holds_of_oneOf (hentries entry hentry)
    obtain rfl | rfl : schema = text ∨ schema = ref "page" := by simpa using hschema
    · exact .inl (isText_of_text hholds)
    · exact .inr hholds
  · simpa [holds_anyOf, holds_required] using hnamed
  · simpa [holds_not, holds_required] using hnot

/-- What the schema says of hints: some members are texts. -/
theorem exists_fields_of_hints (h : hints.Holds lookup value) :
    ∃ fields, value = .object fields ∧
      ∀ key ∈ ["t", "va", "answer"], ∀ value, fields.lookup key = some value → value.IsText := by
  simp only [hints, holds_all, List.forall_mem_cons] at h
  obtain ⟨htype, hmembers, -⟩ := h
  obtain ⟨fields, rfl⟩ := eq_object_of_type htype
  simp only [holds_properties, List.forall_mem_cons] at hmembers
  obtain ⟨ht, -, hva, -, -, -, hanswer, -⟩ := hmembers
  refine ⟨fields, rfl, ?_⟩
  simp only [List.forall_mem_cons]
  exact ⟨fun value h => isText_of_text (ht value h), fun value h => isText_of_text (hva value h),
    fun value h => isText_of_text (hanswer value h), by simp⟩

/-- What the schema says of an interaction. -/
theorem exists_fields_of_interaction (h : interaction.Holds lookup value) :
    ∃ fields, value = .object fields ∧
      (∀ key ∈ ["m", "c"], ∃ text, fields.lookup key = some (.string text)) ∧
      ∀ value, fields.lookup "a" = some value → (mapOf (.ref "hints")).Holds lookup value := by
  simp only [interaction, holds_all, List.forall_mem_cons] at h
  obtain ⟨htype, hrequired, hmembers, -⟩ := h
  obtain ⟨fields, rfl⟩ := eq_object_of_type htype
  simp only [holds_properties, List.forall_mem_cons] at hmembers
  obtain ⟨hm, hc, ha, -⟩ := hmembers
  simp only [holds_required, List.forall_mem_cons] at hrequired
  have htext : ∀ key, (fields.lookup key).isSome →
      (∀ value, fields.lookup key = some value → text.Holds lookup value) →
      ∃ text, fields.lookup key = some (.string text) := by
    intro key hsome hschema
    obtain ⟨value, hvalue⟩ := Option.isSome_iff_exists.mp hsome
    obtain ⟨text, rfl⟩ := isText_of_text (hschema value hvalue)
    exact ⟨text, hvalue⟩
  refine ⟨fields, rfl, ?_, ha⟩
  simp only [List.forall_mem_cons]
  exact ⟨htext _ hrequired.1 hm, htext _ hrequired.2.1 hc, by simp⟩

/-- What the schema says of a presentation. -/
theorem exists_fields_of_presentation (h : presentation.Holds lookup value) :
    ∃ fields, value = .object fields ∧
      (∀ key ∈ ["bd", "p", "po"], (fields.lookup key).isSome) ∧
      (∀ key ∈ ["bd", "d"], ∀ value, fields.lookup key = some value → value.IsText) ∧
      (∀ key ∈ ["l", "po"], ∀ value, fields.lookup key = some value →
        ∃ items, value = .array items ∧ ∀ item ∈ items, item.IsText) ∧
      (∀ value, fields.lookup "p" = some value → (listOf (ref "page")).Holds lookup value) ∧
      (∀ value, fields.lookup "pl" = some value → (mapOf (mapOf text)).Holds lookup value) ∧
      ∀ value, fields.lookup "i" = some value →
        (listOf (ref "interaction")).Holds lookup value := by
  simp only [presentation, holds_all, List.forall_mem_cons] at h
  obtain ⟨htype, hrequired, hmembers, -⟩ := h
  obtain ⟨fields, rfl⟩ := eq_object_of_type htype
  simp only [holds_properties, List.forall_mem_cons] at hmembers
  obtain ⟨hbd, hd, hl, hp, hpo, hpl, hi, -⟩ := hmembers
  refine ⟨fields, rfl, holds_required.mp hrequired, ?_, ?_, hp, hpl, hi⟩
  · simp only [List.forall_mem_cons]
    exact ⟨fun value h => isText_of_nonEmptyText (hbd value h),
      fun value h => isText_of_text (hd value h), by simp⟩
  · simp only [List.forall_mem_cons]
    refine ⟨fun value h => ?_, fun value h => ?_, by simp⟩
    · have hlanguages := hl value h
      simp only [holds_all, List.forall_mem_cons] at hlanguages
      obtain ⟨htype, -, hitems, -⟩ := hlanguages
      obtain ⟨items, rfl⟩ := eq_array_of_type htype
      exact ⟨items, rfl, fun item hitem =>
        isText_of_nonEmptyText (holds_items.mp hitems item hitem)⟩
    · obtain ⟨items, rfl, hitems⟩ := exists_items_of_listOf (hpo value h)
      exact ⟨items, rfl, fun item hitem => isText_of_text (hitems item hitem)⟩

end PresentationSchema

end FormCompiler
