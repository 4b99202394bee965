import FormCompiler.Text.Affix

/-!
# FormCompiler.AttributeType

Declared attribute types and their text.  A type is a base type, wrapped in
an array at most once:

1. `Text`, `Numeric`, `Boolean`, `DateTime` and `Binary` are primitive;
2. `refs:<digest>` refers to another bundle;
3. `Array[<base>]` is an array of a base type;
4. any other text is kept as it stands and recognised nowhere.
-/

namespace FormCompiler

/-! ## base types -/

/-- The primitive kinds of value. -/
inductive Primitive where
  | text
  | numeric
  | boolean
  | dateTime
  | binary
deriving DecidableEq, Repr

namespace Primitive

def tag : Primitive → String
  | text => "Text"
  | numeric => "Numeric"
  | boolean => "Boolean"
  | dateTime => "DateTime"
  | binary => "Binary"

/-- The primitive type with a given text. -/
def ofTag? (tag : String) : Option Primitive :=
  [text, numeric, boolean, dateTime, binary].find? (·.tag = tag)

end Primitive

/-- The type of an element, without array. -/
inductive BaseType where
  | primitive (kind : Primitive)
  /-- A reference to the bundle with this digest. -/
  | reference (digest : String)
  /-- Text that names no type, kept as it stands. -/
  | unrecognized (raw : String)
deriving DecidableEq, Repr

namespace BaseType

def referenceMark : String := "refs:"

/-- Reads the text of a base type. -/
def parse (tag : String) : BaseType :=
  match Text.afterFront? referenceMark.toList tag.toList with
  | some digest => reference (String.ofList digest)
  | none =>
    match Primitive.ofTag? tag with
    | some kind => primitive kind
    | none => unrecognized tag

/-- The text of a base type. -/
def render : BaseType → String
  | primitive kind => kind.tag
  | reference digest => referenceMark ++ digest
  | unrecognized raw => raw

end BaseType

/-! ## declared types -/

/-- A declared type: a base type, possibly in an array. -/
structure AttributeType where
  base : BaseType
  isArray : Bool
deriving DecidableEq, Repr

namespace AttributeType

/-- The base type itself. -/
def scalar (base : BaseType) : AttributeType := ⟨base, false⟩

/-- An array of the base type. -/
def array (base : BaseType) : AttributeType := ⟨base, true⟩

def arrayMark : String := "Array["

/-- Reads the text of a declared type. -/
def parse (raw : String) : AttributeType :=
  match (Text.afterFront? arrayMark.toList raw.toList).bind (Text.beforeBack? [']']) with
  | some inner => array (BaseType.parse (String.ofList inner))
  | none => scalar (BaseType.parse raw)

/-- The text of a declared type. -/
def render (type : AttributeType) : String :=
  if type.isArray then arrayMark ++ type.base.render ++ "]" else type.base.render

/-- The bundle referred to, in an array or not. -/
def reference? (type : AttributeType) : Option String :=
  match type.base with
  | .reference digest => some digest
  | _ => none

/-- The type without its array. -/
def element (type : AttributeType) : AttributeType := scalar type.base

end AttributeType

end FormCompiler
