import FormCompiler.Bundle.Reader
import FormCompiler.Proofs.ListReading

/-!
# FormCompiler.Proofs.BundleGrammar

Which documents are bundles, what they are read as, and why another document
is not read.

* `Bundle.IsDocument` is the grammar: a text `digest` and a list `attributes`,
  each item with a text `name`, a `type` and, if any, `entry_codes` of a known
  kind.
* `Bundle.IsDeclaredBy` says what each member stands for.  Beyond the grammar
  a member that makes no sense counts as absent (`Lenient`), and within a
  member what is no text is skipped (`Picks`).
* `Bundle.FirstFault` is the first check that fails, in document order.

The reader accepts the grammar, yields what is declared, and otherwise ends
with the first fault (`Bundle.documents_read_exactly`).
-/

namespace FormCompiler

/-! ## what is skipped, and what counts as absent -/

section

variable {α β : Type} {R : α → β → Prop} {f : α → Option β}

/-- The items that stand for something, in order; the others are skipped. -/
inductive Picks (R : α → β → Prop) : List α → List β → Prop
  | nil : Picks R [] []
  | take {x y xs ys} (h : R x y) (rest : Picks R xs ys) : Picks R (x :: xs) (y :: ys)
  | skip {x xs ys} (h : ∀ y, ¬ R x y) (rest : Picks R xs ys) : Picks R (x :: xs) ys

/-- Picking is filtering through a function that finds what an item stands for.
-/
theorem picks_iff (hf : ∀ x y, f x = some y ↔ R x y) {xs : List α} {ys : List β} :
    Picks R xs ys ↔ xs.filterMap f = ys := by
  constructor
  · intro h
    induction h with
    | nil => rfl
    | take h _ ih => rw [List.filterMap_cons_some ((hf _ _).mpr h), ih]
    | skip h _ ih =>
        have hnone := Option.eq_none_iff_forall_ne_some.mpr fun y hy => h y ((hf _ y).mp hy)
        rw [List.filterMap_cons_none hnone, ih]
  · rintro rfl
    induction xs with
    | nil => exact .nil
    | cons x xs ih =>
        cases hx : f x with
        | none =>
            rw [List.filterMap_cons_none hx]
            refine .skip (fun y hy => ?_) ih
            rw [(hf x y).mpr hy] at hx
            contradiction
        | some y =>
            rw [List.filterMap_cons_some hx]
            exact .take ((hf x y).mp hx) ih

end

section

variable {β : Type} {R : Json → β → Prop} {f : Json → Option β}

/-- A member is read where it makes sense.  One that does not is overlooked:
it counts as absent. -/
inductive Lenient (R : Json → β → Prop) : Option Json → Option β → Prop
  | given {value y} (h : R value y) : Lenient R (some value) (some y)
  | overlooked {value} (h : ∀ y, ¬ R value y) : Lenient R (some value) none
  | absent : Lenient R none none

/-- What is absent or overlooked leaves the blank value. -/
def LenientOr (blank : β) (R : Json → β → Prop) (member : Option Json) (y : β) : Prop :=
  ∃ declared, Lenient R member declared ∧ declared.getD blank = y

/-- Reading leniently is trying such a function on the member, if there is one.
-/
theorem lenient_iff (hf : ∀ value y, f value = some y ↔ R value y) {member : Option Json}
    {declared : Option β} : Lenient R member declared ↔ member.bind f = declared := by
  constructor
  · rintro (⟨h⟩ | ⟨h⟩ | _)
    · exact (hf _ _).mpr h
    · exact Option.eq_none_iff_forall_ne_some.mpr fun y hy => h y ((hf _ y).mp hy)
    · rfl
  · rintro rfl
    cases member with
    | none => exact .absent
    | some value =>
        cases hvalue : f value with
        | none =>
            refine (Option.bind_some value f).trans hvalue ▸ .overlooked fun y hy => ?_
            rw [(hf value y).mpr hy] at hvalue
            contradiction
        | some y => exact (Option.bind_some value f).trans hvalue ▸ .given ((hf value y).mp hvalue)

/-- What is absent or overlooked is read as the blank value. -/
theorem lenientOr_iff (hf : ∀ value y, f value = some y ↔ R value y) {blank : β}
    {member : Option Json} {y : β} :
    LenientOr blank R member y ↔ (member.bind f).getD blank = y := by
  simp only [LenientOr, lenient_iff hf, exists_eq_left']

end

/-! ## values -/

namespace Json

section

variable {β : Type} {value : Json} {member : Option Json}

def IsString (value : Json) (text : String) : Prop := value = .string text

def ListsTexts (value : Json) (texts : List String) : Prop :=
  ∃ items, value = .array items ∧ Picks IsString items texts

/-- The value is an object, whose fields that hold text are collected. -/
def CollectsTexts (collect : List (String × String) → β) (value : Json) (y : β) : Prop :=
  ∃ fields entries, value = .object fields ∧
    Picks (fun field entry => field.1 = entry.1 ∧ field.2.IsString entry.2) fields entries ∧
    collect entries = y

/-- The value is an object, each of whose fields stands for an entry. -/
def MapsFields (R : Json → β → Prop) (value : Json) (entries : List (String × β)) : Prop :=
  ∃ fields, value = .object fields ∧
    List.Forall₂ (fun field entry => field.1 = entry.1 ∧ R field.2 entry.2) fields entries

theorem asArray?_eq_some {items : List Json} :
    value.asArray? = some items ↔ value = array items := by
  cases value <;> simp [asArray?]

theorem asObject?_eq_some {fields : List (String × Json)} :
    value.asObject? = some fields ↔ value = object fields := by
  cases value <;> simp [asObject?]

/-- A text member is read leniently, so one that is no text counts as absent.
-/
theorem textMember?_eq_iff {key : String} {text : Option String} :
    value.textMember? key = text ↔ Lenient IsString (value.get? key) text :=
  (lenient_iff fun _ _ => asString?_eq_some).symm

/-- A text member is the text that stands under its key. -/
theorem textMember?_eq_some {key text : String} :
    value.textMember? key = some text ↔ value.get? key = some (.string text) := by
  simp only [textMember?, Option.bind_eq_some_iff, asString?_eq_some, exists_eq_right]

theorem arrayMember_eq_some {key : String} {items : List Json} :
    (value.get? key).bind asArray? = some items ↔ value.get? key = some (.array items) := by
  simp only [Option.bind_eq_some_iff, asArray?_eq_some, exists_eq_right]

/-- The texts of a list are the items that are texts, in order. -/
theorem textItems_eq_iff {items : List Json} {texts : List String} :
    Bundle.textItems items = texts ↔ Picks IsString items texts :=
  (picks_iff fun _ _ => asString?_eq_some).symm

/-- The texts of an object are its members that are texts, with their keys. -/
theorem textFields_eq_iff {fields : List (String × Json)} {entries : List (String × String)} :
    Bundle.textFields fields = entries ↔
      Picks (fun field entry => field.1 = entry.1 ∧ field.2.IsString entry.2) fields entries := by
  refine (picks_iff fun field entry => ?_).symm
  obtain ⟨key, text⟩ := entry
  simp [asString?_eq_some, IsString, and_comm]

/-- What is no list has no texts in it. -/
theorem textItems_asArray?_eq_iff (value : Json) {texts : List String} :
    Bundle.textItems (value.asArray?.getD []) = texts ↔
      LenientOr [] ListsTexts (some value) texts := by
  have hlist : ∀ value texts, value.asArray?.map Bundle.textItems = some texts ↔
      ListsTexts value texts := fun value texts => by
    simp only [Option.map_eq_some_iff, asArray?_eq_some, textItems_eq_iff, ListsTexts]
  rw [lenientOr_iff hlist]
  cases value <;> rfl

/-- What is no object has no fields to collect. -/
theorem textFields_fieldsOf_eq_iff {collect : List (String × String) → β} {y : β} :
    collect (Bundle.textFields (Bundle.fieldsOf member)) = y ↔
      LenientOr (collect []) (CollectsTexts collect) member y := by
  have hobject : ∀ value y,
      value.asObject?.map (fun fields => collect (Bundle.textFields fields)) = some y ↔
        CollectsTexts collect value y := fun value y => by
    simp only [Option.map_eq_some_iff, asObject?_eq_some, CollectsTexts, ← textFields_eq_iff,
      exists_and_left, exists_eq_left']
  rw [lenientOr_iff hobject]
  cases member with
  | none => rfl
  | some value => cases value <;> rfl

/-- An object is read member by member, and nothing but an object is. -/
theorem map_asObject?_eq_some_iff {R : Json → β → Prop} {read : Json → β}
    (hread : ∀ value y, read value = y ↔ R value y) {entries : List (String × β)} :
    value.asObject?.map (List.map fun field => (field.1, read field.2)) = some entries ↔
      value.MapsFields R entries := by
  have hentry : ∀ (field : String × Json) (entry : String × β),
      (field.1, read field.2) = entry ↔ field.1 = entry.1 ∧ R field.2 entry.2 :=
    fun field entry => by rw [Prod.ext_iff, hread]
  simp only [Option.map_eq_some_iff, asObject?_eq_some, MapsFields]
  refine exists_congr fun fields => and_congr_right fun _ => ?_
  rw [← List.forall₂_eq_eq_eq, List.forall₂_map_left_iff]
  exact ⟨fun h => h.imp fun _ _ => (hentry _ _).mp, fun h => h.imp fun _ _ => (hentry _ _).mpr⟩

end

end Json

/-! ## attributes -/

namespace Attribute

/-- The value maps languages to the labels of codes. -/
def DeclaresEntries (value : Json) (entries : Localized EntryLabels) : Prop :=
  ∃ langs, value.MapsFields
      (fun labels => LenientOr .empty (Json.CollectsTexts .ofList) (some labels)) langs ∧
    .ofList langs = entries

/-- The value maps systems to units, and this one stands first. -/
def DeclaresUnits (value : Json) (units : Units) : Prop :=
  ∃ rest, value = .object ((units.system, .string units.unit) :: rest)

/-- The member is a type: its text, or a list of one text for an array. -/
inductive DeclaresType : Option Json → AttributeType → Prop
  | text (raw : String) : DeclaresType (some (.string raw)) (.parse raw)
  | list (inner : String) :
    DeclaresType (some (.array [.string inner])) (.array (.parse inner))

/-- The member is a list of codes or an object of such lists, or there are no
codes. -/
inductive DeclaresCodes : Option Json → Option EntryCodes → Prop
  | absent : DeclaresCodes none none
  | null : DeclaresCodes (some .null) none
  | flat {value codes} (h : value.ListsTexts codes) :
    DeclaresCodes (some value) (some (.flat codes))
  | grouped {value groups}
      (h : value.MapsFields (fun codes => LenientOr [] Json.ListsTexts (some codes)) groups) :
    DeclaresCodes (some value) (some (.grouped groups))

/-- The value is the declaration of an attribute. -/
structure IsDeclaredBy (a : Attribute) (value : Json) : Prop where
  name : value.get? "name" = some (.string a.name)
  type : DeclaresType (value.get? "type") a.type
  entryCodes : DeclaresCodes (value.get? "entry_codes") a.entryCodes
  conformance : Lenient Json.IsString (value.get? "conformance") a.conformance
  cardinality : Lenient Json.IsString (value.get? "cardinality") a.cardinality
  format : Lenient Json.IsString (value.get? "format") a.format
  units : Lenient DeclaresUnits (value.get? "units") a.units
  entries : Lenient DeclaresEntries (value.get? "entries") a.entries
  labels : LenientOr .empty (Json.CollectsTexts .ofList) (value.get? "labels") a.labels
  informations :
    LenientOr .empty (Json.CollectsTexts .ofList) (value.get? "informations") a.informations

/-! ### members -/

section

variable {value : Json} {member : Option Json} {name : String}

/-- Texts per language are collected in the order of the members, and there are
none without an object. -/
theorem localizedTexts_eq_iff {texts : Localized String} :
    Bundle.localizedTexts member = texts ↔
      LenientOr .empty (Json.CollectsTexts .ofList) member texts :=
  Json.textFields_fieldsOf_eq_iff

/-- The labels of an entry set are read per language, in the order of the
members. -/
theorem entryLabels_eq_some_iff {entries : Localized EntryLabels} :
    Bundle.entryLabels value = some entries ↔ DeclaresEntries value entries := by
  have hread : Bundle.entryLabels value =
      (value.asObject?.map (List.map fun lang =>
        (lang.1, .ofList (Bundle.textFields (Bundle.fieldsOf (some lang.2)))))).map .ofList := by
    cases value <;> rfl
  rw [hread, Option.map_eq_some_iff]
  exact exists_congr fun langs => and_congr_left fun _ =>
    Json.map_asObject?_eq_some_iff fun _ _ => Json.textFields_fieldsOf_eq_iff

/-- Of the units, only the one that stands first counts. -/
theorem firstUnit_eq_some_iff {units : Units} :
    Bundle.firstUnit value = some units ↔ DeclaresUnits value units := by
  unfold Bundle.firstUnit DeclaresUnits
  constructor
  · intro h
    obtain ⟨fields, hfields, h⟩ := Option.bind_eq_some_iff.mp h
    obtain ⟨⟨system, unit⟩, hhead, h⟩ := Option.bind_eq_some_iff.mp h
    obtain ⟨text, htext, h⟩ := Option.bind_eq_some_iff.mp h
    obtain rfl := Option.some.inj h
    obtain ⟨rest, rfl⟩ := List.head?_eq_some_iff.mp hhead
    rw [Json.asObject?_eq_some.mp hfields, Json.asString?_eq_some.mp htext]
    exact ⟨rest, rfl⟩
  · rintro ⟨rest, rfl⟩
    rfl

/-- A type is read from its text, and an array from a list of one text. -/
theorem readType_eq_ok_iff {type : AttributeType} :
    Bundle.readType name member = .ok type ↔ DeclaresType member type := by
  constructor
  · intro h
    unfold Bundle.readType at h
    split at h
    · contradiction
    · exact Except.ok.inj h ▸ .text _
    · exact Except.ok.inj h ▸ .list _
    · contradiction
    · contradiction
  · rintro (⟨raw⟩ | ⟨inner⟩) <;> rfl

/-- Entry codes are read from a list or from an object, and there are none
without the member. -/
theorem readEntryCodes_eq_ok_iff {codes : Option EntryCodes} :
    Bundle.readEntryCodes name member = .ok codes ↔ DeclaresCodes member codes := by
  have hgroups : ∀ (value : Json) groups,
      value.asObject?.map (List.map fun group =>
        (group.1, Bundle.textItems (group.2.asArray?.getD []))) = some groups ↔
      value.MapsFields (fun codes => LenientOr [] Json.ListsTexts (some codes)) groups :=
    fun _ _ => Json.map_asObject?_eq_some_iff fun value _ => Json.textItems_asArray?_eq_iff value
  constructor
  · intro h
    unfold Bundle.readEntryCodes at h
    split at h
    · exact Except.ok.inj h ▸ .absent
    · exact Except.ok.inj h ▸ .null
    · exact Except.ok.inj h ▸ .flat ⟨_, rfl, Json.textItems_eq_iff.mp rfl⟩
    · exact Except.ok.inj h ▸ .grouped ((hgroups _ _).mp rfl)
    · contradiction
  · rintro (_ | _ | ⟨items, rfl, hcodes⟩ | hgrouped)
    · rfl
    · rfl
    · rw [← Json.textItems_eq_iff.mpr hcodes]
      rfl
    · obtain ⟨fields, hfields, hgrouped⟩ := Option.map_eq_some_iff.mp ((hgroups _ _).mpr hgrouped)
      rw [Json.asObject?_eq_some.mp hfields, ← hgrouped]
      rfl

end

/-- What is read of an attribute is what its declaration says. -/
theorem readAttribute_eq_ok_iff {value : Json} {a : Attribute} :
    Bundle.readAttribute value = .ok a ↔ a.IsDeclaredBy value := by
  constructor
  · intro h
    unfold Bundle.readAttribute at h
    split at h
    · contradiction
    · next name hname =>
        obtain ⟨type, htype, h⟩ := except_bind_eq_ok.mp h
        obtain ⟨codes, hcodes, h⟩ := except_bind_eq_ok.mp h
        obtain rfl := Except.ok.inj h
        exact {
          name := Json.textMember?_eq_some.mp hname
          type := readType_eq_ok_iff.mp htype
          entryCodes := readEntryCodes_eq_ok_iff.mp hcodes
          conformance := Json.textMember?_eq_iff.mp rfl
          cardinality := Json.textMember?_eq_iff.mp rfl
          format := Json.textMember?_eq_iff.mp rfl
          units := (lenient_iff fun _ _ => firstUnit_eq_some_iff).mpr rfl
          entries := (lenient_iff fun _ _ => entryLabels_eq_some_iff).mpr rfl
          labels := localizedTexts_eq_iff.mp rfl
          informations := localizedTexts_eq_iff.mp rfl }
  · intro h
    unfold Bundle.readAttribute
    rw [Json.textMember?_eq_some.mpr h.name]
    dsimp only
    rw [readType_eq_ok_iff.mpr h.type, readEntryCodes_eq_ok_iff.mpr h.entryCodes,
      Json.textMember?_eq_iff.mpr h.conformance, Json.textMember?_eq_iff.mpr h.cardinality,
      Json.textMember?_eq_iff.mpr h.format,
      (lenient_iff fun _ _ => firstUnit_eq_some_iff).mp h.units,
      (lenient_iff fun _ _ => entryLabels_eq_some_iff).mp h.entries,
      localizedTexts_eq_iff.mpr h.labels, localizedTexts_eq_iff.mpr h.informations]
    rfl

/-! ### faults -/

/-- The member is the text of a type, or a list of one such text. -/
def IsType (member : Option Json) : Prop :=
  (∃ raw, member = some (.string raw)) ∨ ∃ inner, member = some (.array [.string inner])

/-- The member may stand for entry codes: a list, an object, or nothing. -/
def IsCodes (member : Option Json) : Prop :=
  member = none ∨ member = some .null ∨ (∃ items, member = some (.array items)) ∨
    ∃ fields, member = some (.object fields)

/-- The value is an attribute as far as its name, type and entry codes go. -/
structure IsDocument (value : Json) : Prop where
  name : ∃ name, value.get? "name" = some (.string name)
  type : IsType (value.get? "type")
  entryCodes : IsCodes (value.get? "entry_codes")

/-- What is wrong with a member that is no type. -/
inductive TypeFault : Option Json → AttributeFault → Prop
  | missing : TypeFault none .missingType
  | list {items} (h : ∀ inner, items ≠ [.string inner]) :
    TypeFault (some (.array items)) .arrayTypeNotSingle
  | kind {found} (noText : ∀ raw, found ≠ .string raw) (noList : ∀ items, found ≠ .array items) :
    TypeFault (some found) (.unsupportedType found)

/-- The first check of an attribute that fails: of its name, its type or its
entry codes. -/
inductive FirstFault (value : Json) : DocumentError → Prop
  | name (h : ∀ name, value.get? "name" ≠ some (.string name)) :
    FirstFault value .attributeWithoutName
  | type {name fault} (named : value.get? "name" = some (.string name))
      (h : TypeFault (value.get? "type") fault) : FirstFault value (.badAttribute name fault)
  | entryCodes {name found} (named : value.get? "name" = some (.string name))
      (typed : IsType (value.get? "type")) (codes : value.get? "entry_codes" = some found)
      (h : ¬ IsCodes (some found)) : FirstFault value (.badAttribute name (.entryCodesKind found))

section

variable {value : Json} {member : Option Json} {name : String} {error : DocumentError}

/-- A member stands for some type exactly if it has the form of one, since any
text is read as a type. -/
theorem exists_declaresType_iff : (∃ type, DeclaresType member type) ↔ IsType member := by
  constructor
  · rintro ⟨type, ⟨raw⟩ | ⟨inner⟩⟩
    · exact .inl ⟨raw, rfl⟩
    · exact .inr ⟨inner, rfl⟩
  · rintro (⟨raw, rfl⟩ | ⟨inner, rfl⟩)
    · exact ⟨_, .text raw⟩
    · exact ⟨_, .list inner⟩

/-- A type that is not read ends with its fault, under the name of the
attribute. -/
theorem readType_eq_error_iff :
    Bundle.readType name member = .error error ↔
      ∃ fault, TypeFault member fault ∧ .badAttribute name fault = error := by
  constructor
  · intro h
    unfold Bundle.readType at h
    split at h
    · exact ⟨_, .missing, Except.error.inj h⟩
    · contradiction
    · contradiction
    · next items hsingle =>
        exact ⟨_, .list fun inner heq => hsingle inner (heq ▸ rfl), Except.error.inj h⟩
    · next found htext hsingle hlist =>
        exact ⟨_, .kind (fun raw heq => htext raw (heq ▸ rfl))
          (fun items heq => hlist items (heq ▸ rfl)), Except.error.inj h⟩
  · rintro ⟨fault, _ | h | ⟨noText, noList⟩, rfl⟩
    · rfl
    · unfold Bundle.readType
      split <;> grind
    · unfold Bundle.readType
      split <;> grind

/-- Entry codes are refused only for the kind of their value. -/
theorem readEntryCodes_eq_error_iff :
    Bundle.readEntryCodes name member = .error error ↔
      ∃ found, member = some found ∧ ¬ IsCodes (some found) ∧
        .badAttribute name (.entryCodesKind found) = error := by
  cases member with
  | none => exact ⟨fun h => (nomatch h), fun ⟨_, h, _⟩ => (nomatch h)⟩
  | some found =>
      cases found <;> simp [Bundle.readEntryCodes, IsCodes]

/-- Whether entry codes are read does not depend on the name of the attribute.
-/
theorem exists_readEntryCodes_iff (name : String) :
    (∃ codes, Bundle.readEntryCodes name member = .ok codes) ↔ IsCodes member := by
  cases member with
  | none => simp [Bundle.readEntryCodes, IsCodes]
  | some found => cases found <;> simp [Bundle.readEntryCodes, IsCodes]

theorem readAttribute_eq_error_of_name (h : ∀ name, value.get? "name" ≠ some (.string name)) :
    Bundle.readAttribute value = .error .attributeWithoutName := by
  have hnone : value.textMember? "name" = none :=
    Option.eq_none_iff_forall_ne_some.mpr fun name hname =>
      h name (Json.textMember?_eq_some.mp hname)
  unfold Bundle.readAttribute
  rw [hnone]

/-- An attribute is read if its name, its type and its entry codes pass. -/
theorem exists_readAttribute_iff :
    (∃ a, Bundle.readAttribute value = .ok a) ↔ IsDocument value := by
  constructor
  · rintro ⟨a, ha⟩
    have h := readAttribute_eq_ok_iff.mp ha
    exact ⟨⟨a.name, h.name⟩, exists_declaresType_iff.mp ⟨a.type, h.type⟩,
      (exists_readEntryCodes_iff a.name).mp ⟨_, readEntryCodes_eq_ok_iff.mpr h.entryCodes⟩⟩
  · rintro ⟨⟨name, hname⟩, htype, hcodes⟩
    obtain ⟨type, htype⟩ := exists_declaresType_iff.mpr htype
    obtain ⟨codes, hcodes⟩ := (exists_readEntryCodes_iff name).mpr hcodes
    unfold Bundle.readAttribute
    rw [Json.textMember?_eq_some.mpr hname]
    dsimp only
    rw [readType_eq_ok_iff.mpr htype, hcodes]
    exact ⟨_, rfl⟩

/-- An attribute that is not read ends with its first fault. -/
theorem readAttribute_eq_error_iff :
    Bundle.readAttribute value = .error error ↔ FirstFault value error := by
  constructor
  · intro h
    unfold Bundle.readAttribute at h
    split at h
    · next hnone =>
        obtain rfl := Except.error.inj h
        refine .name fun name hname => ?_
        rw [Json.textMember?_eq_some.mpr hname] at hnone
        contradiction
    · next name hname =>
        have named := Json.textMember?_eq_some.mp hname
        obtain htype | ⟨type, htype, h⟩ := except_bind_eq_error.mp h
        · obtain ⟨fault, hfault, rfl⟩ := readType_eq_error_iff.mp htype
          exact .type named hfault
        have typed := exists_declaresType_iff.mp ⟨type, readType_eq_ok_iff.mp htype⟩
        obtain hcodes | ⟨codes, -, h⟩ := except_bind_eq_error.mp h
        · obtain ⟨found, hfound, hkind, rfl⟩ := readEntryCodes_eq_error_iff.mp hcodes
          exact .entryCodes named typed hfound hkind
        · contradiction
  · rintro (⟨h⟩ | ⟨named, h⟩ | ⟨named, typed, codes, h⟩)
    · exact readAttribute_eq_error_of_name h
    · unfold Bundle.readAttribute
      rw [Json.textMember?_eq_some.mpr named]
      dsimp only
      rw [readType_eq_error_iff.mpr ⟨_, h, rfl⟩]
      rfl
    · obtain ⟨type, htype⟩ := exists_declaresType_iff.mpr typed
      unfold Bundle.readAttribute
      rw [Json.textMember?_eq_some.mpr named]
      dsimp only
      rw [readType_eq_ok_iff.mpr htype, readEntryCodes_eq_error_iff.mpr ⟨_, codes, h, rfl⟩]
      rfl

end

end Attribute

/-! ## bundles -/

namespace Bundle

/-- The value declares the display texts of a bundle in one language. -/
structure DeclaresTexts (value : Json) (texts : BundleTexts) : Prop where
  name : Lenient Json.IsString (value.get? "name") texts.name
  description : Lenient Json.IsString (value.get? "description") texts.description

/-- The value maps languages to display texts. -/
def DeclaresLanguages (value : Json) (texts : Localized BundleTexts) : Prop :=
  ∃ langs, value.MapsFields DeclaresTexts langs ∧ .ofList langs = texts

/-- The document declares the bundle: one attribute for each item, in order. -/
structure IsDeclaredBy (bundle : Bundle) (doc : Json) : Prop where
  digest : doc.get? "digest" = some (.string bundle.digest)
  attributes : ∃ items, doc.get? "attributes" = some (.array items) ∧
    List.Forall₂ (fun item a => Attribute.IsDeclaredBy a item) items bundle.attributes
  texts : LenientOr .empty DeclaresLanguages (doc.get? "meta") bundle.texts

/-- The document is a bundle: it has a digest and a list of attributes. -/
structure IsDocument (doc : Json) : Prop where
  digest : ∃ digest, doc.get? "digest" = some (.string digest)
  attributes : ∃ items, doc.get? "attributes" = some (.array items) ∧
    ∀ item ∈ items, Attribute.IsDocument item

/-- The first check of a document that fails: of its digest, its list of
attributes, or one of the attributes behind others that pass. -/
inductive FirstFault (doc : Json) : DocumentError → Prop
  | digest (h : ∀ digest, doc.get? "digest" ≠ some (.string digest)) :
    FirstFault doc (.missingField "digest")
  | attributes {digest} (known : doc.get? "digest" = some (.string digest))
      (h : ∀ items, doc.get? "attributes" ≠ some (.array items)) :
    FirstFault doc (.missingField "attributes")
  | item {digest before item after error} (known : doc.get? "digest" = some (.string digest))
      (listed : doc.get? "attributes" = some (.array (before ++ item :: after)))
      (passed : ∀ b ∈ before, Attribute.IsDocument b) (h : Attribute.FirstFault item error) :
    FirstFault doc error

section

variable {doc : Json} {bundle : Bundle} {error : DocumentError}

/-- The display texts of a bundle are read leniently, language by language. -/
theorem readTexts_eq_iff {member : Option Json} {texts : Localized BundleTexts} :
    readTexts member = texts ↔ LenientOr .empty DeclaresLanguages member texts := by
  have hentry : ∀ (value : Json) (texts : BundleTexts),
      ⟨value.textMember? "name", value.textMember? "description"⟩ = texts ↔
        DeclaresTexts value texts := fun value texts => by
    rw [BundleTexts.mk.injEq, Json.textMember?_eq_iff, Json.textMember?_eq_iff]
    exact ⟨fun h => ⟨h.1, h.2⟩, fun h => ⟨h.name, h.description⟩⟩
  have hobject : ∀ value y, (value.asObject?.map (List.map fun lang =>
      (lang.1, ⟨lang.2.textMember? "name", lang.2.textMember? "description"⟩))).map .ofList =
        some y ↔ DeclaresLanguages value y := fun value y => by
    rw [Option.map_eq_some_iff]
    exact exists_congr fun langs => and_congr_left fun _ => Json.map_asObject?_eq_some_iff hentry
  rw [lenientOr_iff hobject]
  cases member with
  | none => rfl
  | some value => cases value <;> rfl

/-- Attributes are read one by one, in the order of the list. -/
theorem mapM_readAttribute_eq_ok_iff {items : List Json} {attributes : List Attribute} :
    items.mapM readAttribute = .ok attributes ↔
      List.Forall₂ (fun item a => Attribute.IsDeclaredBy a item) items attributes := by
  simp only [mapM_eq_ok_iff, Attribute.readAttribute_eq_ok_iff]

/-- Behind digest and list, a document is read as its attributes are. -/
theorem ofJson_of_list {digest : String} {items : List Json}
    (known : doc.get? "digest" = some (.string digest))
    (listed : doc.get? "attributes" = some (.array items)) :
    ofJson doc = do
      let attributes ← items.mapM readAttribute
      return ⟨digest, attributes, readTexts (doc.get? "meta")⟩ := by
  unfold ofJson
  rw [Json.textMember?_eq_some.mpr known, Json.arrayMember_eq_some.mpr listed]

/-- The digest is checked first. -/
theorem ofJson_of_missingDigest (h : ∀ digest, doc.get? "digest" ≠ some (.string digest)) :
    ofJson doc = .error (.missingField "digest") := by
  have hnone : doc.textMember? "digest" = none :=
    Option.eq_none_iff_forall_ne_some.mpr fun digest known =>
      h digest (Json.textMember?_eq_some.mp known)
  unfold ofJson
  rw [hnone]

/-- The list of attributes is checked right behind the digest. -/
theorem ofJson_of_missingList {digest : String}
    (known : doc.get? "digest" = some (.string digest))
    (h : ∀ items, doc.get? "attributes" ≠ some (.array items)) :
    ofJson doc = .error (.missingField "attributes") := by
  have hnone : (doc.get? "attributes").bind Json.asArray? = none :=
    Option.eq_none_iff_forall_ne_some.mpr fun items listed =>
      h items (Json.arrayMember_eq_some.mp listed)
  unfold ofJson
  rw [Json.textMember?_eq_some.mpr known]
  dsimp only
  rw [hnone]

/-- The first two checks of a document: one of them fails, or there is a
digest and a list. -/
theorem checks_of_document (doc : Json) :
    (∀ digest, doc.get? "digest" ≠ some (.string digest)) ∨
      ∃ digest, doc.get? "digest" = some (.string digest) ∧
        ((∀ items, doc.get? "attributes" ≠ some (.array items)) ∨
          ∃ items, doc.get? "attributes" = some (.array items)) := by
  by_cases known : ∃ digest, doc.get? "digest" = some (.string digest)
  · obtain ⟨digest, known⟩ := known
    by_cases listed : ∃ items, doc.get? "attributes" = some (.array items)
    · exact .inr ⟨digest, known, .inr listed⟩
    · exact .inr ⟨digest, known, .inl (not_exists.mp listed)⟩
  · exact .inl (not_exists.mp known)

/-- What is read of a document is what it declares. -/
theorem ofJson_eq_ok_iff : ofJson doc = .ok bundle ↔ bundle.IsDeclaredBy doc := by
  constructor
  · intro h
    obtain unknown | ⟨digest, known, unlisted | ⟨items, listed⟩⟩ := checks_of_document doc
    · rw [ofJson_of_missingDigest unknown] at h
      contradiction
    · rw [ofJson_of_missingList known unlisted] at h
      contradiction
    · rw [ofJson_of_list known listed] at h
      obtain ⟨attributes, hattributes, h⟩ := except_bind_eq_ok.mp h
      obtain rfl := Except.ok.inj h
      exact ⟨known, ⟨items, listed, mapM_readAttribute_eq_ok_iff.mp hattributes⟩,
        readTexts_eq_iff.mp rfl⟩
  · intro h
    obtain ⟨items, listed, hattributes⟩ := h.attributes
    rw [ofJson_of_list h.digest listed, mapM_readAttribute_eq_ok_iff.mpr hattributes,
      readTexts_eq_iff.mpr h.texts]
    rfl

/-- A document is read if its digest, its list and all attributes pass. -/
theorem exists_ofJson_iff : (∃ bundle, ofJson doc = .ok bundle) ↔ IsDocument doc := by
  constructor
  · rintro ⟨bundle, hbundle⟩
    have h := ofJson_eq_ok_iff.mp hbundle
    obtain ⟨items, listed, hattributes⟩ := h.attributes
    have hread := exists_mapM_iff.mp
      ⟨bundle.attributes, mapM_readAttribute_eq_ok_iff.mpr hattributes⟩
    exact ⟨⟨bundle.digest, h.digest⟩, items, listed, fun item hitem =>
      Attribute.exists_readAttribute_iff.mp (hread item hitem)⟩
  · rintro ⟨⟨digest, known⟩, items, listed, hitems⟩
    obtain ⟨attributes, hattributes⟩ := exists_mapM_iff.mpr fun item hitem =>
      Attribute.exists_readAttribute_iff.mpr (hitems item hitem)
    rw [ofJson_of_list known listed, hattributes]
    exact ⟨_, rfl⟩

/-- A document that is not read ends with its first fault. -/
theorem ofJson_eq_error_iff : ofJson doc = .error error ↔ FirstFault doc error := by
  constructor
  · intro h
    obtain unknown | ⟨digest, known, unlisted | ⟨items, listed⟩⟩ := checks_of_document doc
    · rw [ofJson_of_missingDigest unknown] at h
      exact Except.error.inj h ▸ .digest unknown
    · rw [ofJson_of_missingList known unlisted] at h
      exact Except.error.inj h ▸ .attributes known unlisted
    · rw [ofJson_of_list known listed] at h
      obtain h | ⟨_, -, h⟩ := except_bind_eq_error.mp h
      · obtain ⟨before, item, after, rfl, passed, hitem⟩ := mapM_eq_error_iff.mp h
        exact .item known listed
          (fun b hb => Attribute.exists_readAttribute_iff.mp (passed b hb))
          (Attribute.readAttribute_eq_error_iff.mp hitem)
      · contradiction
  · intro h
    cases h with
    | digest unknown => exact ofJson_of_missingDigest unknown
    | attributes known unlisted => exact ofJson_of_missingList known unlisted
    | @item _ before item after _ known listed passed h =>
        have hitems : (before ++ item :: after).mapM readAttribute = .error error :=
          mapM_eq_error_iff.mpr ⟨before, item, after, rfl,
            fun b hb => Attribute.exists_readAttribute_iff.mpr (passed b hb),
            Attribute.readAttribute_eq_error_iff.mpr h⟩
        rw [ofJson_of_list known listed, hitems]
        rfl

end

/-- A document is read exactly if it is a bundle, as what its members declare;
every other document ends with the first check that fails. -/
theorem documents_read_exactly (doc : Json) :
    ((∃ bundle, ofJson doc = .ok bundle) ↔ IsDocument doc) ∧
      (∀ bundle, ofJson doc = .ok bundle ↔ bundle.IsDeclaredBy doc) ∧
      ∀ error, ofJson doc = .error error ↔ FirstFault doc error :=
  ⟨exists_ofJson_iff, fun _ => ofJson_eq_ok_iff, fun _ => ofJson_eq_error_iff⟩

/-- A list of units and a label that is no text are overlooked. -/
example :
    let labels := Json.object [("eng", .null), ("pol", .string "Imię")]
    let name := Json.object
      [("name", .string "name"), ("type", .string "Text"), ("units", .array []), ("labels", labels)]
    let doc := Json.object [("digest", .string "Eperson"), ("attributes", .array [name])]
    (ofJson doc).toOption =
      some ⟨"Eperson", [{ Attribute.bare "name" (.scalar (.primitive .text)) with
        labels := ⟨[("pol", "Imię")]⟩ }], .empty⟩ := by decide

end Bundle

end FormCompiler
