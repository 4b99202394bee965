import FormCompiler.Proofs.BundleGrammar

/-!
# FormCompiler.Proofs.TypeTexts

Declared types and their texts.  Every text names a type, which is written as
that text again (`AttributeType.render_parse`).

Not every type is written as a text that names it: text that is kept as it
stands might be the text of another type.  `AttributeType.IsDeclarable` says
which types are named by their own texts, and these are just the types that
bundle documents declare, in either form (`AttributeType.type_texts_inverse`).
The list form of a type is the array of it, and so is the text in brackets.
Only one pair of brackets is taken off: what is left of an array of arrays is
kept as it stands.
-/

namespace FormCompiler

/-- What stands behind a known beginning. -/
theorem Text.afterFront?_toList {front text : String} {rest : List Char} :
    afterFront? front.toList text.toList = some rest ↔ text = front ++ String.ofList rest := by
  rw [afterFront?_eq_some, ← String.toList_inj, String.toList_append, String.toList_ofList]

/-! ## base types -/

/-- A primitive type is named by its tag. -/
theorem Primitive.ofTag?_eq_some_iff {tag : String} {kind : Primitive} :
    ofTag? tag = some kind ↔ kind.tag = tag := by
  constructor
  · intro h
    simpa using List.find?_some h
  · rintro rfl
    cases kind <;> decide

namespace BaseType

/-- The text names neither a primitive type nor a reference. -/
structure NamesNone (raw : String) : Prop where
  primitive : ∀ kind : Primitive, raw ≠ kind.tag
  reference : ∀ digest, raw ≠ referenceMark ++ digest

/-- A text names a primitive type, a reference, or none of them. -/
theorem parse_cases (tag : String) :
    (∃ digest, tag = referenceMark ++ digest ∧ parse tag = reference digest) ∨
      (∃ kind : Primitive, tag = kind.tag ∧ parse tag = primitive kind) ∨
      NamesNone tag ∧ parse tag = unrecognized tag := by
  unfold parse
  split
  · next digest hdigest => exact .inl ⟨_, Text.afterFront?_toList.mp hdigest, rfl⟩
  · next hnone =>
      split
      · next kind hkind =>
          exact .inr (.inl ⟨kind, (Primitive.ofTag?_eq_some_iff.mp hkind).symm, rfl⟩)
      · next hunknown =>
          refine .inr (.inr ⟨⟨fun kind heq => ?_, fun digest heq => ?_⟩, rfl⟩)
          · rw [Primitive.ofTag?_eq_some_iff.mpr heq.symm] at hunknown
            contradiction
          · rw [Text.afterFront?_toList.mpr (heq.trans (by rw [String.ofList_toList]))] at hnone
            contradiction

/-- A base type is written as the text that it was read from. -/
theorem render_parse (tag : String) : (parse tag).render = tag := by
  obtain ⟨digest, rfl, h⟩ | ⟨kind, rfl, h⟩ | ⟨-, h⟩ := parse_cases tag <;> rw [h] <;> rfl

/-- The text of a reference names it, whatever its digest. -/
theorem parse_reference (digest : String) : parse (referenceMark ++ digest) = reference digest := by
  have hfront : Text.afterFront? referenceMark.toList (referenceMark ++ digest).toList =
      some digest.toList := Text.afterFront?_toList.mpr (by rw [String.ofList_toList])
  unfold parse
  rw [hfront]
  dsimp only
  rw [String.ofList_toList]

theorem parse_tag (kind : Primitive) : parse kind.tag = primitive kind := by
  cases kind <;> decide

/-- Text is kept as it stands exactly if it names nothing else. -/
theorem parse_eq_unrecognized_iff {raw : String} :
    parse raw = unrecognized raw ↔ NamesNone raw := by
  obtain ⟨digest, rfl, h⟩ | ⟨kind, rfl, h⟩ | ⟨hnone, h⟩ := parse_cases raw
  · exact ⟨fun heq => by simp [h] at heq, fun hnone => absurd rfl (hnone.reference digest)⟩
  · exact ⟨fun heq => by simp [h] at heq, fun hnone => absurd rfl (hnone.primitive kind)⟩
  · exact ⟨fun _ => hnone, fun _ => h⟩

/-- A base type is named by its text unless it is kept text that names another
one. -/
theorem parse_render_iff {base : BaseType} :
    parse base.render = base ↔ ∀ raw, base = unrecognized raw → NamesNone raw := by
  cases base with
  | primitive kind => exact ⟨fun _ _ h => (nomatch h), fun _ => parse_tag kind⟩
  | reference digest => exact ⟨fun _ _ h => (nomatch h), fun _ => parse_reference digest⟩
  | unrecognized raw => simp [render, parse_eq_unrecognized_iff]

end BaseType

/-! ## declared types -/

namespace AttributeType

/-- The text of an array of what `inner` names. -/
def bracketed (inner : String) : String := arrayMark ++ inner ++ "]"

theorem inside_eq_some_iff {raw : String} {inner : List Char} :
    (Text.afterFront? arrayMark.toList raw.toList).bind (Text.beforeBack? [']']) = some inner ↔
      raw = bracketed (String.ofList inner) := by
  simp only [Option.bind_eq_some_iff, Text.afterFront?_eq_some, Text.beforeBack?_eq_some,
    bracketed, ← String.toList_inj, String.toList_append, String.toList_ofList]
  constructor
  · rintro ⟨rest, hraw, rfl⟩
    rw [hraw, List.append_assoc]
    rfl
  · intro hraw
    exact ⟨inner ++ [']'], by rw [hraw, List.append_assoc]; rfl, rfl⟩

/-- The text in the brackets names the elements. -/
theorem parse_bracketed (inner : String) : parse (bracketed inner) = array (.parse inner) := by
  have hinner := inside_eq_some_iff.mpr
    (show bracketed inner = bracketed (String.ofList inner.toList) by rw [String.ofList_toList])
  unfold parse
  rw [hinner]
  dsimp only
  rw [String.ofList_toList]

theorem parse_of_not_bracketed {raw : String} (h : ∀ inner, raw ≠ bracketed inner) :
    parse raw = scalar (.parse raw) := by
  unfold parse
  split
  · next inner hinner => exact absurd (inside_eq_some_iff.mp hinner) (h _)
  · rfl

theorem render_array (base : BaseType) : (array base).render = bracketed base.render := rfl

theorem render_scalar (base : BaseType) : (scalar base).render = base.render := rfl

/-- A type is written as the text that it was read from. -/
theorem render_parse (raw : String) : (parse raw).render = raw := by
  by_cases h : ∃ inner, raw = bracketed inner
  · obtain ⟨inner, rfl⟩ := h
    rw [parse_bracketed, render_array, BaseType.render_parse]
  · rw [parse_of_not_bracketed (not_exists.mp h), render_scalar, BaseType.render_parse]

/-! ### brackets -/

theorem bracketed_ne_tag (inner : String) (kind : Primitive) : bracketed inner ≠ kind.tag := by
  intro h
  have h := String.toList_inj.mpr h
  cases kind <;> simp [bracketed, arrayMark, Primitive.tag] at h

theorem bracketed_ne_reference (inner digest : String) :
    bracketed inner ≠ BaseType.referenceMark ++ digest := by
  intro h
  have h := String.toList_inj.mpr h
  simp [bracketed, arrayMark, BaseType.referenceMark] at h

/-- An array is no base type. -/
theorem namesNone_bracketed (inner : String) : BaseType.NamesNone (bracketed inner) :=
  ⟨bracketed_ne_tag inner, bracketed_ne_reference inner⟩

/-- Only text that is kept as it stands may be in brackets. -/
theorem render_ne_bracketed_iff {base : BaseType} :
    (∀ inner, base.render ≠ bracketed inner) ↔
      ∀ raw, base = .unrecognized raw → ∀ inner, raw ≠ bracketed inner := by
  cases base with
  | primitive kind =>
      exact ⟨fun _ _ h => (nomatch h), fun _ inner h => bracketed_ne_tag inner kind h.symm⟩
  | reference digest =>
      exact ⟨fun _ _ h => (nomatch h), fun _ inner h => bracketed_ne_reference inner digest h.symm⟩
  | unrecognized raw => simp [BaseType.render]

/-! ### types that their texts name -/

/-- The text of the type names the type.  It might name another one where text
is kept as it stands. -/
def IsDeclarable (type : AttributeType) : Prop :=
  ∀ raw, type.base = .unrecognized raw →
    BaseType.NamesNone raw ∧ (type.isArray = false → ∀ inner, raw ≠ bracketed inner)

/-- An array is named by its text if its element is. -/
theorem parse_render_array_iff {base : BaseType} :
    parse (array base).render = array base ↔ BaseType.parse base.render = base := by
  rw [render_array, parse_bracketed]
  exact ⟨congrArg AttributeType.base, congrArg array⟩

/-- A single value is named by its text if its base type is, and if that text
has no brackets. -/
theorem parse_render_scalar_iff {base : BaseType} :
    parse (scalar base).render = scalar base ↔
      BaseType.parse base.render = base ∧ ∀ inner, base.render ≠ bracketed inner := by
  rw [render_scalar]
  constructor
  · intro h
    have hplain : ∀ inner, base.render ≠ bracketed inner := fun inner hinner => by
      rw [hinner, parse_bracketed] at h
      cases congrArg AttributeType.isArray h
    rw [parse_of_not_bracketed hplain] at h
    exact ⟨congrArg AttributeType.base h, hplain⟩
  · rintro ⟨h, hplain⟩
    rw [parse_of_not_bracketed hplain, h]

/-- A type is read back from its text exactly if the text names it. -/
theorem parse_render_iff {type : AttributeType} :
    parse type.render = type ↔ type.IsDeclarable := by
  obtain ⟨base, isArray⟩ := type
  cases isArray with
  | true =>
      refine parse_render_array_iff.trans (BaseType.parse_render_iff.trans ?_)
      exact forall₂_congr fun raw _ => (and_iff_left fun h => (nomatch h)).symm
  | false =>
      rw [← scalar, parse_render_scalar_iff, BaseType.parse_render_iff, render_ne_bracketed_iff,
        ← forall₂_and]
      exact forall₂_congr fun raw _ => and_congr_right fun _ =>
        ⟨fun h _ => h, fun h => h rfl⟩

/-! ### types in documents -/

/-- What a document declares is named by its own text. -/
theorem parse_render_of_declaresType {member : Option Json} {type : AttributeType}
    (h : Attribute.DeclaresType member type) : parse type.render = type := by
  cases h with
  | text raw => rw [render_parse]
  | list inner => rw [parse_render_array_iff, BaseType.render_parse]

/-- A bundle with one attribute, whose type is declared by a text. -/
def documentOf (raw : String) : Json :=
  let attr := Json.object [("name", .string ""), ("type", .string raw)]
  .object [("digest", .string ""), ("attributes", .array [attr])]

theorem ofJson_documentOf (raw : String) :
    Bundle.ofJson (documentOf raw) = .ok ⟨"", [.bare "" (parse raw)], .empty⟩ := rfl

/-- The types that bundle documents declare are those that are read back from
their texts. -/
theorem exists_declared_iff {type : AttributeType} :
    (∃ doc bundle, Bundle.ofJson doc = .ok bundle ∧ ∃ a ∈ bundle.attributes, a.type = type) ↔
      parse type.render = type := by
  constructor
  · rintro ⟨doc, bundle, hbundle, a, ha, rfl⟩
    obtain ⟨items, -, hitems⟩ := (Bundle.ofJson_eq_ok_iff.mp hbundle).attributes
    exact forall_of_mapM
      (fun item _ a ha =>
        parse_render_of_declaresType (Attribute.readAttribute_eq_ok_iff.mp ha).type)
      (Bundle.mapM_readAttribute_eq_ok_iff.mpr hitems) a ha
  · intro h
    refine ⟨documentOf type.render, ⟨"", [.bare "" type], .empty⟩, ?_, .bare "" type,
      List.mem_singleton_self _, rfl⟩
    rw [ofJson_documentOf, h]

/-- Every text is written back from the type that it names.  The types that
bundle documents declare are those named by their own texts: a list of one
text declares the array of it, as the text in brackets does, and what stands
in brackets within that is kept as it stands. -/
theorem type_texts_inverse :
    (∀ raw, (parse raw).render = raw) ∧
      (∀ type,
        ((∃ doc bundle, Bundle.ofJson doc = .ok bundle ∧ ∃ a ∈ bundle.attributes, a.type = type) ↔
          parse type.render = type) ∧
        (parse type.render = type ↔ type.IsDeclarable)) ∧
      ∀ name inner,
        Bundle.readType name (some (.array [.string inner])) =
          Bundle.readType name (some (.string (bracketed inner))) ∧
        Bundle.readType name (some (.array [.string (bracketed inner)])) =
          .ok (array (.unrecognized (bracketed inner))) := by
  refine ⟨render_parse, fun type => ⟨exists_declared_iff, parse_render_iff⟩,
    fun name inner => ⟨?_, ?_⟩⟩
  · rw [Bundle.readType, Bundle.readType, parse_bracketed]
  · rw [Bundle.readType, BaseType.parse_eq_unrecognized_iff.mpr (namesNone_bracketed inner)]

/-- The inner brackets stay. -/
example : parse "Array[Array[Text]]" = array (.unrecognized "Array[Text]") := by decide

end AttributeType

end FormCompiler
