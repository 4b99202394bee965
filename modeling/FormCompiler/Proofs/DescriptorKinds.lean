import FormCompiler.FieldBuilder

/-!
# FormCompiler.Proofs.DescriptorKinds

What decides the kind of a descriptor: whether there is an entry set,
whether the type is an array, the kind of its base type, and the widget
(`FieldAspects`).  `FieldAspects.tags?` tells the tag of the descriptor, and
that of the element an array repeats, from these four alone; it is the table
that the builder follows (`Attribute.descriptor_tags`).  So attributes and
properties that agree on the four get descriptors of one kind or are refused
alike, and neither lists nor hidden fields are ever built, nor arrays of
anything but single values (`Attribute.descriptor_kind_determined`).
-/

namespace FormCompiler

/-! ## kinds -/

/-- What a base type is, whichever bundle it refers to. -/
inductive BaseKind where
  | primitive (kind : Primitive)
  | reference
  | unrecognized
deriving DecidableEq, Repr

def BaseType.kind : BaseType → BaseKind
  | primitive kind => .primitive kind
  | reference _ => .reference
  | unrecognized _ => .unrecognized

def Descriptor.elementTag? : Descriptor → Option String
  | .array _ element => some element.tag
  | _ => none

/-- What decides the kind of a descriptor. -/
structure FieldAspects where
  hasEntries : Bool
  isArray : Bool
  base : BaseKind
  widget : Option Widget
deriving DecidableEq, Repr

def Attribute.aspects (attr : Attribute) (props : WidgetProperties) : FieldAspects :=
  ⟨attr.entries.isSome, attr.type.isArray, attr.type.base.kind, props.widget⟩

namespace FieldAspects

/-- The tag of a single value of a kind of base type under a widget. -/
def singleTag? : BaseKind → Option Widget → Option String
  | .primitive .text, some .codeScanner => some "code_scanner"
  | .primitive .text, _ => some "text"
  | .primitive .numeric, _ => some "number"
  | .primitive .boolean, _ => some "checkbox"
  | .primitive .binary, some .file => some "file"
  | .primitive .binary, some .signature => some "signature"
  | .primitive .dateTime, some .date => some "date"
  | .primitive .dateTime, some .time => some "time"
  | .primitive .dateTime, some .dateTime => some "datetime"
  | .reference, some .signature => some "signature"
  | .reference, some .question => some "question"
  | _, _ => none

/-- The tag of the descriptor and of the element it repeats. -/
def tags? (aspects : FieldAspects) : Option (String × Option String) :=
  if aspects.hasEntries then some ("choice", none)
  else if aspects.isArray then
    if aspects.base = .primitive .binary ∧ aspects.widget = some .file then
      some ("multifile", none)
    else (singleTag? aspects.base aspects.widget).map fun element => ("array", some element)
  else (singleTag? aspects.base aspects.widget).map fun tag => (tag, none)

end FieldAspects

namespace Attribute

variable {attr : Attribute} {props : WidgetProperties} {now : Timestamp}

/-! ## one attribute -/

/-- A single value is refused, or it has the tag of the table and repeats
nothing. -/
theorem scalarDescriptor_tag (attr : Attribute) (props : WidgetProperties) (now : Timestamp) :
    (FieldAspects.singleTag? attr.type.base.kind props.widget = none ∧
        attr.scalarDescriptor props now = .error (.unsupportedType attr.name attr.type)) ∨
      ∃ descriptor, attr.scalarDescriptor props now = .ok descriptor ∧
        FieldAspects.singleTag? attr.type.base.kind props.widget = some descriptor.tag ∧
        descriptor.elementTag? = none := by
  unfold scalarDescriptor
  generalize attr.type.base = base, props.widget = widget
  cases base with
  | primitive kind =>
      cases kind with
      | numeric => exact .inr ⟨_, rfl, rfl, rfl⟩
      | boolean => exact .inr ⟨_, rfl, rfl, rfl⟩
      | text =>
          rcases widget with _ | widget
          · exact .inr ⟨_, rfl, rfl, rfl⟩
          · cases widget <;> exact .inr ⟨_, rfl, rfl, rfl⟩
      | binary | dateTime =>
          rcases widget with _ | widget
          · exact .inl ⟨rfl, rfl⟩
          · cases widget <;> first | exact .inl ⟨rfl, rfl⟩ | exact .inr ⟨_, rfl, rfl, rfl⟩
  | reference digest =>
      rcases widget with _ | widget
      · exact .inl ⟨rfl, rfl⟩
      · cases widget <;> first | exact .inl ⟨rfl, rfl⟩ | exact .inr ⟨_, rfl, rfl, rfl⟩
  | unrecognized raw => exact .inl ⟨rfl, rfl⟩

/-- Without entry set and array a descriptor goes by the base type. -/
theorem descriptor_of_single (hentries : attr.entries = none)
    (harray : attr.type.isArray = false) :
    attr.descriptor props now = attr.scalarDescriptor props now := by
  simp [descriptor, hentries, harray]

/-- So does the element of an array. -/
theorem descriptor_of_element (hentries : attr.entries = none) :
    { attr with type := attr.type.element }.descriptor props now =
      { attr with type := attr.type.element }.scalarDescriptor props now :=
  descriptor_of_single hentries rfl

/-- An array that is not one of files repeats what its element would be. -/
theorem descriptor_of_isArray (hentries : attr.entries = none)
    (harray : attr.type.isArray = true) :
    attr.descriptor props now =
      if attr.type.base = .primitive .binary ∧ props.uses .file then
        .ok (.multifile (Cardinality.parse? attr.cardinality))
      else ({ attr with type := attr.type.element }.descriptor props now).map
        (.array (Cardinality.parse? attr.cardinality)) := by
  rw [descriptor_of_element hentries]
  simp [descriptor, hentries, harray]
  rfl

/-- Its aspects tell whether an attribute takes files. -/
theorem takesFiles_iff :
    (attr.aspects props).base = .primitive .binary ∧ (attr.aspects props).widget = some .file ↔
      attr.type.base = .primitive .binary ∧ props.uses .file := by
  simp only [aspects, WidgetProperties.uses, beq_iff_eq]
  cases attr.type.base <;> simp [BaseType.kind]

/-- The builder follows the table: what has no tag there is refused, under
the type of a single value. -/
theorem descriptor_tags (attr : Attribute) (props : WidgetProperties) (now : Timestamp) :
    ((attr.aspects props).tags? = none ∧
        attr.descriptor props now = .error (.unsupportedType attr.name attr.type.element)) ∨
      ∃ descriptor, attr.descriptor props now = .ok descriptor ∧
        (attr.aspects props).tags? = some (descriptor.tag, descriptor.elementTag?) := by
  have hentriesSeen : (attr.aspects props).hasEntries = attr.entries.isSome := rfl
  have harraySeen : (attr.aspects props).isArray = attr.type.isArray := rfl
  rw [FieldAspects.tags?, hentriesSeen, harraySeen]
  cases hentries : attr.entries with
  | some entries =>
      refine .inr ⟨.choice (props.display?.getD .select) (attr.variants entries), ?_, if_pos rfl⟩
      rw [descriptor, hentries]
  | none =>
      rw [if_neg (by simp)]
      cases harray : attr.type.isArray with
      | false =>
          have helement : attr.type.element = attr.type := by
            rw [AttributeType.element, AttributeType.scalar, ← harray]
          rw [if_neg (by simp), descriptor_of_single hentries harray, helement]
          obtain ⟨hnone, herror⟩ | ⟨single, hok, htag, hrepeats⟩ :=
            scalarDescriptor_tag attr props now
          · exact .inl ⟨congrArg _ hnone, herror⟩
          · exact .inr ⟨single, hok, hrepeats ▸ congrArg _ htag⟩
      | true =>
          rw [if_pos rfl, descriptor_of_isArray hentries harray]
          by_cases hfiles : attr.type.base = .primitive .binary ∧ props.uses .file
          · rw [if_pos (takesFiles_iff.mpr hfiles), if_pos hfiles]
            exact .inr ⟨_, rfl, rfl⟩
          · rw [if_neg (mt takesFiles_iff.mp hfiles), if_neg hfiles,
              descriptor_of_element hentries]
            obtain ⟨hnone, herror⟩ | ⟨single, hok, htag, -⟩ :=
              scalarDescriptor_tag { attr with type := attr.type.element } props now
            · exact .inl ⟨congrArg _ hnone, by rw [herror]; rfl⟩
            · exact .inr ⟨.array _ single, by rw [hok]; rfl, congrArg _ htag⟩

end Attribute

/-! ## the table -/

namespace FieldAspects

/-- A single value is neither a choice nor files, and nothing repeats in
it. -/
theorem singleTag?_notMem {base : BaseKind} {widget : Option Widget} {tag : String}
    (h : singleTag? base widget = some tag) :
    tag ∉ ["array", "multifile", "choice", "list", "hidden"] := by
  unfold singleTag? at h
  split at h
  all_goals cases h
  all_goals decide

/-- The table knows neither lists nor hidden fields, and arrays of single
values alone. -/
theorem tags?_notMem {aspects : FieldAspects} {tag : String} {element : Option String}
    (h : aspects.tags? = some (tag, element)) :
    tag ∉ ["list", "hidden"] ∧
      ∀ inner ∈ element, inner ∉ ["array", "multifile", "choice", "list", "hidden"] := by
  unfold tags? at h
  split at h
  · cases h
    exact ⟨by decide, nofun⟩
  · split at h
    · split at h
      · cases h
        exact ⟨by decide, nofun⟩
      · obtain ⟨single, hsingle, hpair⟩ := Option.map_eq_some_iff.mp h
        cases hpair
        refine ⟨by decide, fun inner hinner => ?_⟩
        obtain rfl := Option.some.inj hinner
        exact singleTag?_notMem hsingle
    · obtain ⟨single, hsingle, hpair⟩ := Option.map_eq_some_iff.mp h
      cases hpair
      have hnotMem := singleTag?_notMem hsingle
      exact ⟨fun hmem => hnotMem (List.mem_append_right ["array", "multifile", "choice"] hmem),
        nofun⟩

end FieldAspects

/-! ## two attributes -/

namespace Attribute

variable {attr attr' : Attribute} {props props' : WidgetProperties}

/-- Attributes and properties of the same aspects are refused alike or get
descriptors of one kind, whatever else they hold and whatever the time is;
none is a list or hidden, and arrays repeat single values. -/
theorem descriptor_kind_determined (h : attr.aspects props = attr'.aspects props')
    (now now' : Timestamp) :
    (attr.descriptor props now = .error (.unsupportedType attr.name attr.type.element) ∧
        attr'.descriptor props' now' =
          .error (.unsupportedType attr'.name attr'.type.element)) ∨
      ∃ descriptor descriptor', attr.descriptor props now = .ok descriptor ∧
        attr'.descriptor props' now' = .ok descriptor' ∧
        descriptor.tag = descriptor'.tag ∧
        descriptor.elementTag? = descriptor'.elementTag? ∧
        descriptor.tag ∉ ["list", "hidden"] ∧
        ∀ element ∈ descriptor.elementTag?,
          element ∉ ["array", "multifile", "choice", "list", "hidden"] := by
  obtain ⟨hnone, herror⟩ | ⟨descriptor, hok, htags⟩ := descriptor_tags attr props now <;>
    obtain ⟨hnone', herror'⟩ | ⟨descriptor', hok', htags'⟩ := descriptor_tags attr' props' now'
  · exact .inl ⟨herror, herror'⟩
  · rw [h, htags'] at hnone
    contradiction
  · rw [← h, htags] at hnone'
    contradiction
  · obtain ⟨htag, helement⟩ := Prod.mk.inj (Option.some.inj (htags.symm.trans (h ▸ htags')))
    obtain ⟨hkind, hinner⟩ := FieldAspects.tags?_notMem htags
    exact .inr ⟨descriptor, descriptor', hok, hok', htag, helement, hkind, hinner⟩

/-- Two arrays of dates, one bounded by the time of compilation. -/
theorem descriptor_kind_determined_of_dates :
    let visits : Attribute := { Attribute.bare "visits" (.array (.primitive .dateTime)) with
      cardinality := some "1-3"
      labels := .ofList [("eng", "Visits")] }
    let births : Attribute := { Attribute.bare "births" (.array (.primitive .dateTime)) with
      format := some "YYYY" }
    let bounded : WidgetProperties := { WidgetProperties.ofWidget (some .date) with
      range := some (.array [.string "2000-01-01", .string "in 3 days"]) }
    let free := WidgetProperties.ofWidget (some .date)
    let leapDay : Timestamp := ⟨⟨2024, 2, 29, by decide⟩, .midnight, .utc⟩
    visits.aspects bounded = births.aspects free ∧
      ∃ descriptor descriptor', visits.descriptor bounded .unixEpoch = .ok descriptor ∧
        births.descriptor free leapDay = .ok descriptor' ∧
        descriptor.tag = "array" ∧ descriptor'.tag = "array" ∧
        descriptor.elementTag? = some "date" ∧ descriptor'.elementTag? = some "date" := by
  intro visits births bounded free leapDay
  have haspects : visits.aspects bounded = births.aspects free := by decide
  have hkind : (visits.descriptor bounded .unixEpoch).toOption.map
      (fun made => (made.tag, made.elementTag?)) = some ("array", some "date") := by
    decide +kernel
  obtain ⟨herror, -⟩ | ⟨descriptor, descriptor', hok, hok', htag, helement, -⟩ :=
    descriptor_kind_determined haspects .unixEpoch leapDay
  · rw [herror] at hkind
    contradiction
  · rw [hok] at hkind
    obtain ⟨harray, hdate⟩ := Prod.mk.inj (Option.some.inj hkind)
    exact ⟨haspects, descriptor, descriptor', hok, hok', harray, htag ▸ harray, hdate,
      helement ▸ hdate⟩

end Attribute

end FormCompiler
