import FormCompiler.Json.Shape

/-!
# FormCompiler.DocumentError

The errors of input documents, as causes with one wording each.
-/

namespace FormCompiler

/-- What is wrong with the declaration of an attribute. -/
inductive AttributeFault where
  | missingType
  /-- An array type lists anything but one type. -/
  | arrayTypeNotSingle
  /-- A type is neither text nor a list. -/
  | unsupportedType (declaration : Json)
  /-- Entry codes are neither a list nor an object. -/
  | entryCodesKind (found : Json)

def AttributeFault.message : AttributeFault → String
  | missingType => "missing 'type'"
  | arrayTypeNotSingle => "array type must wrap exactly one type tag"
  | unsupportedType declaration => "unsupported type declaration " ++ declaration.compact
  | entryCodesKind found => "entry_codes must be a list or a map, got " ++ found.compact

/-- Why a document cannot be read. -/
inductive DocumentError where
  | missingField (field : String)
  | badAttribute (name : String) (fault : AttributeFault)
  | attributeWithoutName
  | presentation (error : ShapeError)
  /-- The conditions are no object. -/
  | conditionsKind (found : Json)

namespace DocumentError

/-- The kind of a JSON value, with its article. -/
def kindWithArticle : Json → String
  | .null => "null"
  | .boolean _ => "a boolean"
  | .number _ => "a number"
  | .string _ => "a string"
  | .array _ => "an array"
  | .object _ => "an object"

def message : DocumentError → String
  | missingField field => "document missing required field: '" ++ field ++ "'"
  | badAttribute name fault => "attribute '" ++ name ++ "': " ++ fault.message
  | attributeWithoutName => "invalid document: attribute missing 'name'"
  | presentation error => "invalid document: presentation: " ++ error.message
  | conditionsKind found =>
    "invalid document: conditionals must be an object keyed by attribute path, found " ++
      kindWithArticle found

def kind : DocumentError → String
  | missingField _ => "MissingField"
  | badAttribute _ _ => "AttributeError"
  | attributeWithoutName | presentation _ | conditionsKind _ => "InvalidDocument"

end DocumentError

end FormCompiler
