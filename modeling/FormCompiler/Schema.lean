import FormCompiler.Json.Printer

/-!
# FormCompiler.Schema

The part of JSON Schema that presentations need.  A schema is a single
keyword or a list of schemas that all have to hold; a reference names a
schema of the surrounding definitions.

* A keyword that does not concern the kind of a value accepts it.
* `Schema.violations` gives every violation, in the order of the keywords
  and of the document, not only the first.
* `anyOf`, `oneOf` and `not` ask whether a schema holds, and report one
  violation of their own.
-/

namespace FormCompiler

/-! ## schemas -/

/-- The kinds of JSON values. -/
inductive JsonKind where
  | array
  | boolean
  | null
  | number
  | object
  | string
deriving DecidableEq, Repr

namespace JsonKind

def label : JsonKind → String
  | array => "array"
  | boolean => "boolean"
  | null => "null"
  | number => "number"
  | object => "object"
  | string => "string"

/-- The kinds in the order of their names. -/
def all : List JsonKind := [array, boolean, null, number, object, string]

end JsonKind

def Json.kind : Json → JsonKind
  | .null => .null
  | .boolean _ => .boolean
  | .number _ => .number
  | .string _ => .string
  | .array _ => .array
  | .object _ => .object

/-- A schema. -/
inductive Schema where
  /-- All of them hold. -/
  | all (schemas : List Schema)
  | type (kinds : List JsonKind)
  | enum (values : List Json)
  | minLength (least : Nat)
  | required (names : List String)
  | uniqueItems
  | properties (members : List (String × Schema))
  /-- What holds for every member that is not among the named ones. -/
  | additionalProperties (named : List String) (schema : Schema)
  | items (schema : Schema)
  | anyOf (schemas : List Schema)
  | oneOf (schemas : List Schema)
  | not (schema : Schema)
  /-- The definition of this name. -/
  | ref (name : String)

namespace Schema

mutual

/-- The members of a schema document. -/
def members : Schema → List (String × Json)
  | all schemas => listMembers schemas
  | type [kind] => [("type", .string kind.label)]
  | type kinds => [("type", .array (kinds.map fun kind => .string kind.label))]
  | enum values => [("enum", .array values)]
  | minLength least => [("minLength", .ofNat least)]
  | required names => [("required", .array (names.map .string))]
  | uniqueItems => [("uniqueItems", .boolean true)]
  | properties named => [("properties", .object (namedMembers named))]
  | additionalProperties _ schema => [("additionalProperties", .object schema.members)]
  | items schema => [("items", .object schema.members)]
  | anyOf schemas => [("anyOf", .array (documents schemas))]
  | oneOf schemas => [("oneOf", .array (documents schemas))]
  | not schema => [("not", .object schema.members)]
  | ref name => [("$ref", .string ("#/$defs/" ++ name))]

/-- The members of schemas that stand in one document. -/
def listMembers : List Schema → List (String × Json)
  | [] => []
  | schema :: schemas => schema.members ++ listMembers schemas

/-- Schemas as documents. -/
def documents : List Schema → List Json
  | [] => []
  | schema :: schemas => .object schema.members :: documents schemas

/-- Named schemas as documents. -/
def namedMembers : List (String × Schema) → List (String × Json)
  | [] => []
  | (name, schema) :: rest => (name, .object schema.members) :: namedMembers rest

end

/-- A schema as a document. -/
def toJson (schema : Schema) : Json := .object schema.members

end Schema

/-! ## violations -/

/-- How a value violates a schema. -/
inductive Violation where
  | wrongKind (value : Json) (kinds : List JsonKind)
  | notListed (value : Json) (values : List Json)
  | tooShort (value : Json) (least : Nat)
  | missingProperty (name : String)
  | repeatedItems (value : Json)
  /-- None of the alternatives of `anyOf` holds. -/
  | noAlternative (value : Json)
  /-- None of the alternatives of `oneOf` holds. -/
  | noCase (value : Json)
  /-- Several alternatives of `oneOf` hold. -/
  | severalCases (value : Json)
  | forbidden (value : Json) (schema : Schema)

namespace Violation

/-- Kinds in words, in the order of their names. -/
def describeKinds : List JsonKind → String
  | [kind] => "type " ++ Json.quote kind.label
  | kinds =>
    "types " ++ String.intercalate ", "
      ((JsonKind.all.filter kinds.contains).map fun kind => Json.quote kind.label)

/-- A list of values, the last one behind an `or`. -/
def describeChoice : List Json → String
  | [] => ""
  | [value] => value.compact
  | [first, last] => first.compact ++ " or " ++ last.compact
  | value :: values => value.compact ++ ", " ++ describeChoice values

def message : Violation → String
  | wrongKind value kinds => value.compact ++ " is not of " ++ describeKinds kinds
  | notListed value values => value.compact ++ " is not one of " ++ describeChoice values
  | tooShort value least =>
    value.compact ++ " is shorter than " ++ toString least ++
      (if least = 1 then " character" else " characters")
  | missingProperty name => Json.quote name ++ " is a required property"
  | repeatedItems value => value.compact ++ " has non-unique elements"
  | noAlternative value =>
    value.compact ++ " is not valid under any of the schemas listed in the 'anyOf' keyword"
  | noCase value =>
    value.compact ++ " is not valid under any of the schemas listed in the 'oneOf' keyword"
  | severalCases value =>
    value.compact ++ " is valid under more than one of the schemas listed in the 'oneOf' keyword"
  | forbidden value schema => schema.toJson.compact ++ " is not allowed for " ++ value.compact

end Violation

/-! ## checking -/

def Json.allDistinct : List Json → Bool
  | [] => true
  | item :: items => !items.any item.sameValue && allDistinct items

namespace Schema

/-- The violations of one of the schemas that a reference may name. -/
abbrev Lookup := String → Json → List Violation

mutual

/-- The violations of a schema whose references are checked by `lookup`. -/
def check (lookup : Lookup) : Schema → Json → List Violation
  | all schemas, value => checkAll lookup schemas value
  | type kinds, value => if value.kind ∈ kinds then [] else [.wrongKind value kinds]
  | enum values, value => if values.any value.sameValue then [] else [.notListed value values]
  | minLength least, .string text =>
    if text.length < least then [.tooShort (.string text) least] else []
  | required names, .object fields =>
    (names.filter fun name => (fields.lookup name).isNone).map .missingProperty
  | uniqueItems, .array values =>
    if Json.allDistinct values then [] else [.repeatedItems (.array values)]
  | properties named, .object fields => checkNamed lookup named fields
  | additionalProperties named schema, .object fields =>
    (fields.filter fun field => !named.contains field.1).flatMap fun field =>
      check lookup schema field.2
  | items schema, .array values => values.flatMap (check lookup schema)
  | anyOf schemas, value =>
    if countHolding lookup schemas value = 0 then [.noAlternative value] else []
  | oneOf schemas, value =>
    match countHolding lookup schemas value with
    | 0 => [.noCase value]
    | 1 => []
    | _ => [.severalCases value]
  | not schema, value =>
    if (check lookup schema value).isEmpty then [.forbidden value schema] else []
  | ref name, value => lookup name value
  | _, _ => []

/-- The violations of schemas that all have to hold. -/
def checkAll (lookup : Lookup) : List Schema → Json → List Violation
  | [], _ => []
  | schema :: schemas, value => check lookup schema value ++ checkAll lookup schemas value

/-- The violations of named members, in the order of their schemas. -/
def checkNamed (lookup : Lookup) : List (String × Schema) → List (String × Json) → List Violation
  | [], _ => []
  | (name, schema) :: rest, fields =>
    (match fields.lookup name with
      | some value => check lookup schema value
      | none => []) ++ checkNamed lookup rest fields

/-- The number of schemas that hold. -/
def countHolding (lookup : Lookup) : List Schema → Json → Nat
  | [], _ => 0
  | schema :: schemas, value =>
    (if (check lookup schema value).isEmpty then 1 else 0) + countHolding lookup schemas value

end

end Schema

/-! ## documents -/

mutual

/-- The number of arrays and objects inside one another. -/
def Json.depth : Json → Nat
  | .array items => Json.itemsDepth items + 1
  | .object fields => Json.fieldsDepth fields + 1
  | _ => 0

/-- The greatest depth of an item. -/
def Json.itemsDepth : List Json → Nat
  | [] => 0
  | item :: items => max item.depth (Json.itemsDepth items)

/-- The greatest depth of a field. -/
def Json.fieldsDepth : List (String × Json) → Nat
  | [] => 0
  | (_, value) :: fields => max value.depth (Json.fieldsDepth fields)

end

/-- A schema together with the definitions that references name. -/
structure SchemaDocument where
  root : Schema
  definitions : List (String × Schema)

namespace SchemaDocument

/-- Checks the definition of a name, following at most `steps` references
inside one another. -/
def lookup (doc : SchemaDocument) : Nat → Schema.Lookup
  | 0, _, _ => []
  | steps + 1, name, value =>
    match doc.definitions.lookup name with
    | some schema => schema.check (doc.lookup steps) value
    | none => []

/-- The violations of a document.  Where every reference stands for a part
of what is checked, there are at most as many references inside one another
as the document is deep. -/
def violations (doc : SchemaDocument) (value : Json) : List Violation :=
  doc.root.check (doc.lookup (value.depth + 1)) value

/-- Does a document have no violation? -/
def accepts (doc : SchemaDocument) (value : Json) : Bool := (doc.violations value).isEmpty

end SchemaDocument

end FormCompiler
