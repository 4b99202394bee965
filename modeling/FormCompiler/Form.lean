import FormCompiler.Cardinality
import FormCompiler.Json.Basic

/-!
# FormCompiler.Form

Compiled forms.  A form is a list of pages; a page holds fields and nested
pages; a field entry places a descriptor, which says how one attribute is
captured.  Lists hold nodes of their own, and questions may hold the entry
of their answer and a page of further fields.
-/

namespace FormCompiler

/-! ## descriptors without entries of their own -/

/-- How choices are shown. -/
inductive ChoiceDisplay where
  | select
  | selectMultiple
  | radioHorizontal
  | radioVertical
deriving DecidableEq, Repr

def ChoiceDisplay.tag : ChoiceDisplay → String
  | select => "select"
  | selectMultiple => "select-multiple"
  | radioHorizontal => "radio-horizontal"
  | radioVertical => "radio-vertical"

structure ChoiceOption where
  code : String
  label : Option String
deriving DecidableEq, Repr

/-- A code to choose, or a category with the codes in it. -/
structure ChoiceVariant where
  code : String
  label : Option String
  options : Option (List ChoiceOption)
deriving DecidableEq, Repr

/-- The fields that receive the place of a signature. -/
structure GeolocationFields where
  latitude : Option String
  longitude : Option String
  accuracy : Option String
deriving DecidableEq, Repr

/-- The fields that a signature fills. -/
structure SignatureFields where
  canvas : Option String
  timestamp : Option String
  geolocation : Option GeolocationFields
deriving DecidableEq, Repr

def SignatureFields.none : SignatureFields := ⟨.none, .none, .none⟩

/-- The unit and the limits of a number. -/
structure NumberFormat where
  unitSystem : Option String
  unit : Option String
  range : Option Json
  step : Option Json

/-- What a date field captures. -/
inductive DateKind where
  | date
  | time
  | dateTime
deriving DecidableEq, Repr

/-- The tag of a kind of date field. -/
def DateKind.tag : DateKind → String
  | date => "date"
  | time => "time"
  | dateTime => "datetime"

/-- A bound of a date; nothing where its expression could not be read. -/
abbrev DateBound := Option Timestamp

/-- How list items are identified. -/
inductive IdentifierFormat where
  | uuid
  | bigint
deriving DecidableEq, Repr

namespace IdentifierFormat

def tag : IdentifierFormat → String
  | uuid => "uuid"
  | bigint => "bigint"

def ofTag? (tag : String) : Option IdentifierFormat := [uuid, bigint].find? (·.tag = tag)

theorem ofTag?_eq_some {tag : String} {format : IdentifierFormat} :
    ofTag? tag = some format ↔ tag = format.tag := by
  constructor
  · intro h
    have htag := List.find?_some h
    simpa using (of_decide_eq_true htag).symm
  · rintro rfl
    cases format <;> rfl

end IdentifierFormat

/-- A page of the form, or a section within one. -/
inductive PageKind where
  | page
  | struct
deriving DecidableEq, Repr

/-- The tag of a kind of page. -/
def PageKind.tag : PageKind → String
  | page => "page"
  | struct => "struct"

/-! ## nodes -/

mutual

/-- A page and what stands on it. -/
structure PageNode where
  kind : PageKind
  name : String
  /-- The key of the title in the locale dictionaries. -/
  title : String
  condition : Option Json
  fields : List Node

/-- What stands on a page. -/
inductive Node where
  | field (entry : FieldEntry)
  | page (page : PageNode)

/-- A field and its place in the form. -/
structure FieldEntry where
  name : String
  /-- The key of the label in the locale dictionaries. -/
  label : Option String
  isOptional : Bool
  isReadonly : Bool
  condition : Option Json
  descriptor : Descriptor

/-- How an attribute is captured. -/
inductive Descriptor where
  | choice (display : ChoiceDisplay) (variants : List ChoiceVariant)
  | array (cardinality : Cardinality) (element : Descriptor)
  | multifile (cardinality : Cardinality)
  | list (cardinality : Cardinality) (elements : List Node)
  | text (multiline : Bool) (pattern : Option String)
  | codeScanner (pattern : Option String)
  | file
  | signature (fields : SignatureFields)
  | number (format : NumberFormat)
  | checkbox
  | date (kind : DateKind) (format : Option String) (range : Option (DateBound × DateBound))
  | question (answer : Option FieldEntry) (extras : Option PageNode)
  | hidden (format : IdentifierFormat) (onItemRemove : Option Json)

end

instance : Inhabited Descriptor := ⟨.checkbox⟩

def Descriptor.tag : Descriptor → String
  | choice _ _ => "choice"
  | array _ _ => "array"
  | multifile _ => "multifile"
  | list _ _ => "list"
  | text _ _ => "text"
  | codeScanner _ => "code_scanner"
  | file => "file"
  | signature _ => "signature"
  | number _ => "number"
  | checkbox => "checkbox"
  | date kind _ _ => kind.tag
  | question _ _ => "question"
  | hidden _ _ => "hidden"

def Node.name : Node → String
  | field entry => entry.name
  | page node => node.name

/-- The pages of a form, in order. -/
structure Form where
  pages : List PageNode

end FormCompiler
