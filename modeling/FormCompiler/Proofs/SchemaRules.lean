import FormCompiler.Schema

/-!
# FormCompiler.Proofs.SchemaRules

What a schema says of a value that holds to it: first what each keyword
checks, then what holds of a value without violations.  The rules speak of
the kind of value that the keyword concerns.
-/

namespace FormCompiler

namespace Schema

/-- The value has no violation of the schema. -/
def Holds (lookup : Lookup) (schema : Schema) (value : Json) : Prop :=
  schema.check lookup value = []

variable {lookup : Lookup} {value : Json} {schema : Schema} {schemas : List Schema}
variable {fields : List (String × Json)}

/-! ## keywords -/

theorem check_all : check lookup (all schemas) value = checkAll lookup schemas value := rfl

theorem check_anyOf :
    check lookup (anyOf schemas) value =
      if countHolding lookup schemas value = 0 then [.noAlternative value] else [] := rfl

theorem check_oneOf :
    check lookup (oneOf schemas) value =
      match countHolding lookup schemas value with
      | 0 => [.noCase value]
      | 1 => []
      | _ => [.severalCases value] := rfl

theorem check_not :
    check lookup (not schema) value =
      if (check lookup schema value).isEmpty then [.forbidden value schema] else [] := rfl

theorem check_ref {name : String} : check lookup (ref name) value = lookup name value := rfl

theorem check_type {kinds : List JsonKind} :
    check lookup (type kinds) value =
      if value.kind ∈ kinds then [] else [.wrongKind value kinds] := rfl

theorem check_items {items : List Json} :
    check lookup (Schema.items schema) (.array items) =
      items.flatMap (check lookup schema) := rfl

/-- Each name that is required must be a key of the object. -/
theorem check_required {names : List String} :
    check lookup (required names) (.object fields) =
      (names.filter fun name => (fields.lookup name).isNone).map .missingProperty := rfl

/-- A named member is checked if it is there. -/
theorem check_properties {named : List (String × Schema)} :
    check lookup (properties named) (.object fields) = checkNamed lookup named fields := rfl

theorem check_additionalProperties {named : List String} :
    check lookup (additionalProperties named schema) (.object fields) =
      (fields.filter fun field => !named.contains field.1).flatMap fun field =>
        check lookup schema field.2 := rfl

/-! ## combinations -/

/-- There are no violations of several schemas if there are none of each. -/
theorem checkAll_eq_nil :
    checkAll lookup schemas value = [] ↔ ∀ schema ∈ schemas, schema.Holds lookup value := by
  induction schemas with
  | nil => simp [checkAll]
  | cons schema schemas ih =>
      rw [checkAll, List.append_eq_nil_iff, ih, List.forall_mem_cons, Holds]

/-- A value holds to all schemas if it holds to each. -/
theorem holds_all :
    (all schemas).Holds lookup value ↔ ∀ schema ∈ schemas, schema.Holds lookup value := by
  rw [Holds, check_all, checkAll_eq_nil]

theorem countHolding_eq_zero :
    countHolding lookup schemas value = 0 ↔ ∀ schema ∈ schemas, ¬ schema.Holds lookup value := by
  induction schemas with
  | nil => simp [countHolding]
  | cons schema schemas ih =>
      rw [countHolding, Nat.add_eq_zero_iff, ih, List.forall_mem_cons, Holds,
        ← List.isEmpty_iff]
      cases (schema.check lookup value).isEmpty <;> simp

/-- A value holds to alternatives if it holds to one of them. -/
theorem holds_anyOf :
    (anyOf schemas).Holds lookup value ↔ ∃ schema ∈ schemas, schema.Holds lookup value := by
  rw [Holds, check_anyOf]
  have hzero : countHolding lookup schemas value = 0 ↔ _ := countHolding_eq_zero
  split
  · next h => simpa using hzero.mp h
  · next h =>
      rw [hzero] at h
      simpa using h

/-- One of the cases holds; that no other one does is left out here. -/
theorem exists_holds_of_oneOf (h : (oneOf schemas).Holds lookup value) :
    ∃ schema ∈ schemas, schema.Holds lookup value := by
  have hcount : countHolding lookup schemas value ≠ 0 := by
    intro hzero
    rw [Holds, check_oneOf, hzero] at h
    simp at h
  rw [ne_eq, countHolding_eq_zero] at hcount
  simpa using hcount

/-- A value holds to a negation if it does not hold to the schema. -/
theorem holds_not : (not schema).Holds lookup value ↔ ¬ schema.Holds lookup value := by
  rw [Holds, check_not, Holds]
  by_cases h : schema.check lookup value = [] <;> simp [h]

/-! ## values -/

theorem holds_type {kinds : List JsonKind} :
    (type kinds).Holds lookup value ↔ value.kind ∈ kinds := by
  rw [Holds, check_type]
  split <;> simp_all

theorem eq_string_of_type (h : (type [.string]).Holds lookup value) :
    ∃ text, value = .string text := by
  have hkind := holds_type.mp h
  cases value <;> simp [Json.kind] at hkind
  exact ⟨_, rfl⟩

theorem eq_array_of_type (h : (type [.array]).Holds lookup value) :
    ∃ items, value = .array items := by
  have hkind := holds_type.mp h
  cases value <;> simp [Json.kind] at hkind
  exact ⟨_, rfl⟩

theorem eq_object_of_type (h : (type [.object]).Holds lookup value) :
    ∃ fields, value = .object fields := by
  have hkind := holds_type.mp h
  cases value <;> simp [Json.kind] at hkind
  exact ⟨_, rfl⟩

/-- An array holds to a schema of items if each item does. -/
theorem holds_items {items : List Json} :
    (Schema.items schema).Holds lookup (.array items) ↔
      ∀ item ∈ items, schema.Holds lookup item := by
  rw [Holds, check_items, List.flatMap_eq_nil_iff]
  rfl

/-! ## members -/

theorem holds_required {names : List String} :
    (required names).Holds lookup (.object fields) ↔
      ∀ name ∈ names, (fields.lookup name).isSome := by
  rw [Holds, check_required, List.map_eq_nil_iff, List.filter_eq_nil_iff]
  simp only [Option.isNone_iff_eq_none, ← Option.isSome_iff_ne_none]

/-- There are no violations of named members if those that are there hold. -/
theorem checkNamed_eq_nil {named : List (String × Schema)} :
    checkNamed lookup named fields = [] ↔
      ∀ member ∈ named, ∀ value, fields.lookup member.1 = some value →
        member.2.Holds lookup value := by
  induction named with
  | nil => simp [checkNamed]
  | cons head named ih =>
      obtain ⟨name, schema⟩ := head
      rw [checkNamed, List.append_eq_nil_iff, ih, List.forall_mem_cons]
      refine and_congr_left' ?_
      cases fields.lookup name <;> simp [Holds]

/-- An object holds to named members where it has them. -/
theorem holds_properties {named : List (String × Schema)} :
    (properties named).Holds lookup (.object fields) ↔
      ∀ member ∈ named, ∀ value, fields.lookup member.1 = some value →
        member.2.Holds lookup value := by
  rw [Holds, check_properties, checkNamed_eq_nil]

/-- Where no member is named, all of them hold to one schema. -/
theorem holds_additionalProperties :
    (additionalProperties [] schema).Holds lookup (.object fields) ↔
      ∀ field ∈ fields, schema.Holds lookup field.2 := by
  rw [Holds, check_additionalProperties, List.flatMap_eq_nil_iff]
  simp [Holds]

end Schema

namespace SchemaDocument

variable {doc : SchemaDocument}

/-- A document is accepted if it holds to the root, with references unfolded as
deep as the value is nested. -/
theorem accepts_iff {value : Json} :
    doc.accepts value = true ↔ doc.root.Holds (doc.lookup (value.depth + 1)) value := by
  rw [accepts, List.isEmpty_iff, violations, Schema.Holds]

/-- A reference says what the definition says, with one step less. -/
theorem holds_ref {steps : Nat} {name : String} {schema : Schema} {value : Json}
    (hschema : doc.definitions.lookup name = some schema)
    (h : (Schema.ref name).Holds (doc.lookup (steps + 1)) value) :
    schema.Holds (doc.lookup steps) value := by
  rw [Schema.Holds, Schema.check_ref, lookup, hschema] at h
  exact h

end SchemaDocument

/-! ## depth -/

namespace Json

variable {items : List Json} {fields : List (String × Json)}

theorem depth_lt_of_mem_items {item : Json} (h : item ∈ items) :
    item.depth < (array items).depth := by
  rw [depth, Nat.lt_succ_iff]
  induction items with
  | nil => simp at h
  | cons head items ih =>
      rw [itemsDepth]
      obtain rfl | h := List.mem_cons.mp h
      · exact Nat.le_max_left ..
      · exact Nat.le_trans (ih h) (Nat.le_max_right ..)

theorem depth_lt_of_mem_fields {field : String × Json} (h : field ∈ fields) :
    field.2.depth < (object fields).depth := by
  rw [depth, Nat.lt_succ_iff]
  induction fields with
  | nil => simp at h
  | cons head fields ih =>
      obtain ⟨key, value⟩ := head
      rw [fieldsDepth]
      obtain rfl | h := List.mem_cons.mp h
      · exact Nat.le_max_left ..
      · exact Nat.le_trans (ih h) (Nat.le_max_right ..)

theorem depth_lt_of_lookup {key : String} {value : Json} (h : fields.lookup key = some value) :
    value.depth < (object fields).depth :=
  depth_lt_of_mem_fields (mem_of_lookup h)

end Json

end FormCompiler
