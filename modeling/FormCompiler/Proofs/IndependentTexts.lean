import FormCompiler.Proofs.RecordedTexts
import Mathlib.Data.List.Nodup

/-!
# FormCompiler.Proofs.IndependentTexts

Recording attributes whose paths have different dotted texts.  A key tells
the dotted text it is made of, so no two of them write under one key
(`Attribute.textAt?_eq_none_or`); each record changes the dictionaries of a
language as if the other ones were not there.

So they may be recorded in any order (`Locales.recordAttributes_perm`), and
afterwards each text stands where it was written, under the keys that none of
them writes stands what stood there before, and titles, bundle texts and
languages are as they were (`Locales.attribute_records_commute`).
-/

namespace FormCompiler

/-! ## keys of one attribute -/

namespace Attribute

variable {attr other : Attribute} {lang key : String} {path place : Path} {text : LocaleText}

/-- What recording an attribute writes is the text of a property under its
key. -/
theorem exists_key_of_textAt? (h : attr.textAt? lang path key = some text) :
    ∃ property : TextProperty, key = path.key property.name ∧
      attr.text? lang property = some text := by
  rw [textAt?_eq, Option.or_eq_some_iff, Option.or_eq_some_iff] at h
  obtain hentries | ⟨-, hplaceholder | ⟨-, hlabel⟩⟩ := h
  · obtain ⟨hkey, htext⟩ := Option.ite_none_right_eq_some.mp hentries
    exact ⟨.entries, hkey, htext⟩
  · obtain ⟨hkey, htext⟩ := Option.ite_none_right_eq_some.mp hplaceholder
    exact ⟨.placeholder, hkey, htext⟩
  · obtain ⟨hkey, htext⟩ := Option.ite_none_right_eq_some.mp hlabel
    exact ⟨.label, hkey, htext⟩

/-- Under the key of a property stands the text of that property. -/
theorem textAt?_key_self (attr : Attribute) (lang : String) (path : Path)
    (property : TextProperty) :
    attr.textAt? lang path (path.key property.name) = attr.text? lang property := by
  rw [textAt?_key, if_pos rfl]

/-- Of two attributes at different dotted texts one at most writes under a
key. -/
theorem textAt?_eq_none_or (h : path.render ≠ place.render) (attr other : Attribute)
    (lang key : String) :
    attr.textAt? lang path key = none ∨ other.textAt? lang place key = none := by
  by_contra hboth
  obtain ⟨hfirst, hsecond⟩ := not_or.mp hboth
  obtain ⟨_, htext⟩ := Option.ne_none_iff_exists'.mp hfirst
  obtain ⟨_, htext'⟩ := Option.ne_none_iff_exists'.mp hsecond
  obtain ⟨property, hkey, -⟩ := exists_key_of_textAt? htext
  obtain ⟨property', hkey', -⟩ := exists_key_of_textAt? htext'
  exact h (TextProperty.key_eq_iff.mp (hkey.symm.trans hkey')).2.1

end Attribute

/-! ## dictionaries of one language -/

namespace Locale

def recordAttributes (locale : Locale) (lang : String) (records : List (Path × Attribute)) :
    Locale :=
  records.foldl (fun locale record => locale.recordAttribute lang record.1 record.2) locale

variable {lang : String}

/-- Titles and the texts of the bundle are not touched. -/
theorem pages_bundle_recordAttributes (locale : Locale) (lang : String)
    (records : List (Path × Attribute)) :
    (locale.recordAttributes lang records).pages = locale.pages ∧
      (locale.recordAttributes lang records).bundle = locale.bundle := by
  induction records generalizing locale with
  | nil => exact ⟨rfl, rfl⟩
  | cons record records ih => exact ih (locale.recordAttribute lang record.1 record.2)

/-- Under a key stands what was written there last. -/
theorem find?_recordAttributes (locale : Locale) (records : List (Path × Attribute))
    (key : String) :
    (locale.recordAttributes lang records).attributes.find? key =
      (records.reverse.findSome? fun record => record.2.textAt? lang record.1 key).or
        (locale.attributes.find? key) := by
  induction records generalizing locale with
  | nil => rfl
  | cons record records ih =>
      rw [recordAttributes, List.foldl_cons, ← recordAttributes, ih, find?_recordAttribute,
        List.reverse_cons, List.findSome?_append, Option.or_assoc]
      simp

/-- Two attributes at different dotted texts may be recorded in either order.
-/
theorem recordAttribute_comm {path place : Path} (h : path.render ≠ place.render)
    (locale : Locale) (attr other : Attribute) :
    (locale.recordAttribute lang path attr).recordAttribute lang place other =
      (locale.recordAttribute lang place other).recordAttribute lang path attr := by
  have hattributes : ((locale.recordAttribute lang path attr).recordAttribute lang place
      other).attributes =
        ((locale.recordAttribute lang place other).recordAttribute lang path attr).attributes := by
    refine Dictionary.ext_find? fun key => ?_
    simp only [find?_recordAttribute]
    obtain hnone | hnone := Attribute.textAt?_eq_none_or h attr other lang key
    · rw [hnone, Option.none_or, Option.none_or]
    · rw [hnone, Option.none_or, Option.none_or]
  exact congrArg (Locale.mk · locale.pages locale.bundle) hattributes

end Locale

/-! ## dictionaries of all languages -/

namespace Locales

def recordAttributes (locales : Locales) (records : List (Path × Attribute)) : Locales :=
  records.foldl (fun locales record => locales.recordAttribute record.1 record.2) locales

variable {records reordered : List (Path × Attribute)} {lang : String}

/-- Recording an attribute changes the dictionaries of each language on their
own. -/
theorem find?_recordAttribute (locales : Locales) (path : Path) (attr : Attribute)
    (lang : String) :
    (locales.recordAttribute path attr).find? lang =
      (locales.find? lang).map fun locale => locale.recordAttribute lang path attr :=
  Dictionary.find?_mapWithKey _ _ _

/-- Recording many attributes changes the dictionaries of each language on
their own. -/
theorem find?_recordAttributes (locales : Locales) (records : List (Path × Attribute))
    (lang : String) :
    (locales.recordAttributes records).find? lang =
      (locales.find? lang).map fun locale => locale.recordAttributes lang records := by
  induction records generalizing locales with
  | nil => exact Option.map_id'.symm
  | cons record records ih =>
      rw [recordAttributes, List.foldl_cons, ← recordAttributes, ih, find?_recordAttribute,
        Option.map_map]
      rfl

/-- The languages stay the same. -/
theorem keys_recordAttributes (locales : Locales) (records : List (Path × Attribute)) :
    (locales.recordAttributes records).byLanguage.keys = locales.byLanguage.keys := by
  induction records generalizing locales with
  | nil => rfl
  | cons record records ih =>
      refine (ih (locales.recordAttribute record.1 record.2)).trans ?_
      exact List.map_map.trans rfl

/-- The same holds of the dictionaries of all languages together. -/
theorem recordAttribute_comm {path place : Path} (h : path.render ≠ place.render)
    (locales : Locales) (attr other : Attribute) :
    (locales.recordAttribute path attr).recordAttribute place other =
      (locales.recordAttribute place other).recordAttribute path attr := by
  refine ext_find? fun lang => ?_
  simp only [find?_recordAttribute, Option.map_map]
  exact congrArg (Option.map · _) (funext fun locale => locale.recordAttribute_comm h attr other)

/-- Attributes at different dotted texts may be recorded in any order. -/
theorem recordAttributes_perm (hdistinct : (records.map fun record => record.1.render).Nodup)
    (h : reordered.Perm records) (locales : Locales) :
    locales.recordAttributes reordered = locales.recordAttributes records := by
  refine (h.symm.foldl_eq' (fun record hrecord other hother locales => ?_) locales).symm
  by_cases hrender : record.1.render = other.1.render
  · rw [List.inj_on_of_nodup_map hdistinct hrecord hother hrender]
  · exact locales.recordAttribute_comm hrender record.2 other.2

/-! ## texts after all records -/

/-- Under the key of a text that one attribute writes, no other one writes. -/
theorem findSome?_textAt?_key (hdistinct : (records.map fun record => record.1.render).Nodup)
    {path : Path} {attr : Attribute} (hmem : (path, attr) ∈ records) {property : TextProperty}
    {text : LocaleText} (htext : attr.text? lang property = some text) :
    (records.reverse.findSome? fun record =>
      record.2.textAt? lang record.1 (path.key property.name)) = some text := by
  have hself : attr.textAt? lang path (path.key property.name) = some text :=
    (attr.textAt?_key_self lang path property).trans htext
  have hsome : (records.reverse.findSome? fun record =>
      record.2.textAt? lang record.1 (path.key property.name)).isSome = true :=
    List.findSome?_isSome_iff.mpr ⟨(path, attr), List.mem_reverse.mpr hmem, by simp [hself]⟩
  obtain ⟨last, hlast⟩ := Option.isSome_iff_exists.mp hsome
  obtain ⟨writer, hwriter, hwritten⟩ := List.exists_of_findSome?_eq_some hlast
  obtain ⟨property', hkey, -⟩ := Attribute.exists_key_of_textAt? hwritten
  have hsame := List.inj_on_of_nodup_map hdistinct hmem (List.mem_reverse.mp hwriter)
    (TextProperty.key_eq_iff.mp hkey).2.1
  subst hsame
  exact hlast.trans (hwritten.symm.trans hself)

/-- **Attributes at different dotted texts are recorded independently.**  In
whatever order they are recorded, the dictionaries are the same.  No two of
them write under one key, so each text stands where its attribute put it, and
the other keys keep what they had; titles and bundle texts are untouched, and
the languages stay the same.  This rests on the keys: a key tells its property
and the dotted text of its path, and whether it is a key of the root, which
shares its text with the path of one empty name. -/
theorem attribute_records_commute (locales : Locales)
    (hdistinct : (records.map fun record => record.1.render).Nodup) :
    (∀ reordered : List (Path × Attribute), reordered.Perm records →
      locales.recordAttributes reordered = locales.recordAttributes records) ∧
    (records.Pairwise fun record other => ∀ property property' : TextProperty,
      record.1.key property.name ≠ other.1.key property'.name) ∧
    (locales.recordAttributes records).byLanguage.keys = locales.byLanguage.keys ∧
    (∀ lang before, locales.find? lang = some before →
      ∃ after, (locales.recordAttributes records).find? lang = some after ∧
        after.pages = before.pages ∧ after.bundle = before.bundle ∧
        (∀ path attr, (path, attr) ∈ records → ∀ property text,
          attr.text? lang property = some text →
          after.attributes.find? (path.key property.name) = some text) ∧
        ∀ key, (∀ path attr, (path, attr) ∈ records → ∀ property : TextProperty,
            key = path.key property.name → attr.text? lang property = none) →
          after.attributes.find? key = before.attributes.find? key) ∧
    ∀ (path place : Path) (property property' : TextProperty),
      path.key property.name = place.key property'.name ↔
        path.isRoot = place.isRoot ∧ path.render = place.render ∧ property = property' := by
  refine ⟨fun reordered h => recordAttributes_perm hdistinct h locales, ?_,
    locales.keys_recordAttributes records, ?_, fun _ _ _ _ => TextProperty.key_eq_iff⟩
  · exact (List.pairwise_map.mp hdistinct).imp fun hne _ _ hkey =>
      hne (TextProperty.key_eq_iff.mp hkey).2.1
  · intro lang before hbefore
    obtain ⟨hpages, hbundle⟩ := before.pages_bundle_recordAttributes lang records
    refine ⟨before.recordAttributes lang records, ?_, hpages, hbundle, ?_, ?_⟩
    · rw [find?_recordAttributes, hbefore, Option.map_some]
    · intro path attr hmem property text htext
      rw [Locale.find?_recordAttributes, findSome?_textAt?_key hdistinct hmem htext,
        Option.some_or]
    · intro key hkey
      -- A key that no record writes under passes through all of them.
      have hnone : (records.reverse.findSome? fun record =>
          record.2.textAt? lang record.1 key) = none := by
        refine List.findSome?_eq_none_iff.mpr fun record hrecord => ?_
        by_contra hsome
        obtain ⟨text, hwritten⟩ := Option.ne_none_iff_exists'.mp hsome
        obtain ⟨property, hname, htext⟩ := Attribute.exists_key_of_textAt? hwritten
        rw [hkey _ _ (List.mem_reverse.mp hrecord) property hname] at htext
        contradiction
      rw [Locale.find?_recordAttributes, hnone, Option.none_or]

/-- Attributes at the root, at a path called like one of its keys, and at a
path whose only name is a key of that path. -/
theorem attribute_records_commute_of_names :
    let texts (label : String) : Attribute :=
      { Attribute.bare "text" (.scalar (.primitive .text)) with
        labels := .ofList [("eng", label)], informations := .ofList [("eng", "about " ++ label)] }
    let records : List (Path × Attribute) := [(.root, texts "form"),
      (⟨["label"]⟩, texts "label"), (⟨["label.label"]⟩, texts "dotted")]
    let locales : Locales := .forLanguages ["eng"]
    ((records.map fun record => record.1.render).Nodup ∧ records.reverse.Perm records) ∧
    locales.recordAttributes records.reverse = locales.recordAttributes records ∧
    ∃ after, (locales.recordAttributes records).find? "eng" = some after ∧
      after.attributes.find? "label" = some (.text "form") ∧
      after.attributes.find? "label.label" = some (.text "label") ∧
      after.attributes.find? "label.label.label" = some (.text "dotted") ∧
      after.attributes.find? "placeholder" = some (.text "about form") := by
  intro texts records locales
  have hdistinct : (records.map fun record => record.1.render).Nodup := by decide +kernel
  have hperm : records.reverse.Perm records := records.reverse_perm
  obtain ⟨horder, -, -, htexts, -⟩ := attribute_records_commute locales hdistinct
  have hbefore : locales.find? "eng" = some .empty := by decide +kernel
  obtain ⟨after, hafter, -, -, hwritten, -⟩ := htexts "eng" .empty hbefore
  refine ⟨⟨hdistinct, hperm⟩, horder _ hperm, after, hafter, ?_, ?_, ?_, ?_⟩
  · exact hwritten .root (texts "form") List.mem_cons_self .label _ (by decide +kernel)
  · exact hwritten ⟨["label"]⟩ (texts "label") (by simp [records]) .label _ (by decide +kernel)
  · exact hwritten ⟨["label.label"]⟩ (texts "dotted") (by simp [records]) .label _
      (by decide +kernel)
  · exact hwritten .root (texts "form") List.mem_cons_self .placeholder _ (by decide +kernel)

end Locales

end FormCompiler
