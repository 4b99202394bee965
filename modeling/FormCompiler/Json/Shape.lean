import FormCompiler.Json.Printer
import FormCompiler.Text.Quoted

/-!
# FormCompiler.Json.Shape

Reading typed records out of JSON values, and the errors of a value that
has the wrong shape.  A record is read either from an object, its fields in
document order and unknown keys ignored, or from an array of its fields in
declaration order, where trailing fields with a default may be missing.
-/

namespace FormCompiler

/-- What a reader expects in a place. -/
inductive Shape where
  | text
  | sequence
  | mapping
  /-- A record, by its name and its number of fields. -/
  | record (name : String) (fields : Nat)
deriving DecidableEq, Repr

/-- Why a value does not have the shape that a reader expects. -/
inductive ShapeError where
  | wrongKind (found : Json) (expected : Shape)
  | missingField (name : String)
  /-- An array is too short to be a record. -/
  | tooShort (length : Nat) (name : String) (fields : Nat)
  /-- An array has more items than the record has fields. -/
  | tooLong (length : Nat)
  /-- No alternative of a choice fits. -/
  | noAlternative (name : String)

/-- What is expected, in words. -/
def Shape.describe : Shape → String
  | text => "a string"
  | sequence => "a sequence"
  | mapping => "a map"
  | record name _ => "struct " ++ name

/-- What was found, in words. -/
def Json.describe : Json → String
  | .null => "null"
  | .boolean value => "boolean `" ++ (if value then "true" else "false") ++ "`"
  | .number (.integer value) => "integer `" ++ toString value ++ "`"
  | .number (.double value) => "floating point `" ++ value.text jsonLayout ++ "`"
  | .string value => "string " ++ Text.quoted value
  | .array _ => "sequence"
  | .object _ => "map"

def ShapeError.message : ShapeError → String
  | wrongKind found expected =>
    "invalid type: " ++ found.describe ++ ", expected " ++ expected.describe
  | missingField name => "missing field `" ++ name ++ "`"
  | tooShort length name fields =>
    "invalid length " ++ toString length ++ ", expected struct " ++ name ++ " with " ++
      toString fields ++ " elements"
  | tooLong length =>
    "invalid length " ++ toString length ++ ", expected fewer elements in array"
  | noAlternative name => "data did not match any variant of untagged enum " ++ name

/-- A value of a type, or the first error of its shape. -/
abbrev Shaped (α : Type) := Except ShapeError α

namespace Json

/-! ## plain values -/

/-- A text. -/
def toText : Json → Shaped String
  | .string value => .ok value
  | found => .error (.wrongKind found .text)

/-- A value that may be absent; `null` counts as absent. -/
def toOptional {α : Type} (read : Json → Shaped α) : Json → Shaped (Option α)
  | .null => .ok none
  | value => (read value).map some

/-- A list whose items are read by `read`, in order. -/
def toItems {α : Type} (read : Json → Shaped α) : Json → Shaped (List α)
  | .array items => items.mapM read
  | found => .error (.wrongKind found .sequence)

/-- The fields of an object, their values read by `read`, in order. -/
def toFields {α : Type} (read : Json → Shaped α) : Json → Shaped (List (String × α))
  | .object fields => fields.mapM fun field => do return (field.1, ← read field.2)
  | found => .error (.wrongKind found .mapping)

end Json

/-! ## records -/

/-- How one field of a record is read into a draft of the record. -/
structure FieldReader (σ : Type) where
  /-- The key of the field in an object. -/
  key : String
  /-- Whether the field may not be left out. -/
  isRequired : Bool
  /-- Reads the value into the draft. -/
  read : Json → σ → Shaped σ

namespace FieldReader

variable {σ : Type}

/-- Reads the fields of an object into a draft, in document order. -/
def readFields (readers : List (FieldReader σ)) (fields : List (String × Json)) (draft : σ) :
    Shaped σ :=
  fields.foldlM (fun draft field =>
    match readers.find? (·.key = field.1) with
    | some reader => reader.read field.2 draft
    | none => .ok draft) draft

/-- Reads the items of an array into a draft, in declaration order;
`taken` items have been read. -/
def readItems (name : String) (count : Nat) : Nat → List (FieldReader σ) → List Json → σ →
    Shaped (σ × List Json)
  | _, [], items, draft => .ok (draft, items)
  | taken, reader :: readers, [], draft =>
    if reader.isRequired then .error (.tooShort taken name count)
    else readItems name count (taken + 1) readers [] draft
  | taken, reader :: readers, item :: items, draft => do
    readItems name count (taken + 1) readers items (← reader.read item draft)

/-- The first required key that an object lacks. -/
def missing? (readers : List (FieldReader σ)) (fields : List (String × Json)) : Option String :=
  (readers.find? fun reader => reader.isRequired && (fields.lookup reader.key).isNone).map (·.key)

/-- Reads a record from an object or an array into a draft. -/
def readRecord (name : String) (readers : List (FieldReader σ)) (draft : σ) (value : Json) :
    Shaped σ :=
  match value with
  | .object fields => do
    let draft ← readFields readers fields draft
    match missing? readers fields with
    | some key => .error (.missingField key)
    | none => .ok draft
  | .array items => do
    let (draft, rest) ← readItems name readers.length 0 readers items draft
    if rest.isEmpty then .ok draft else .error (.tooLong items.length)
  | found => .error (.wrongKind found (.record name readers.length))

end FieldReader

end FormCompiler
