import FormCompiler.Entries
import FormCompiler.Json.Shortest

/-!
# FormCompiler.Json.Basic

JSON values.  Objects are lists of fields in document order; a number is
either an integer that fits 64 bits, signed or unsigned, or a binary64
value.  Member access (`Json.get?`) answers nothing on values that are not
objects, and the `as…?` views answer nothing on values of another kind.
-/

namespace FormCompiler

/-! ## numbers -/

/-- A JSON number. -/
inductive Number where
  /-- An integer from `-2 ^ 63` to `2 ^ 64 - 1`. -/
  | integer (value : Int)
  /-- Any other number. -/
  | double (value : Binary64)
deriving DecidableEq, Repr

namespace Number

/-- Is the number zero, of either sign? -/
def isZero : Number → Bool
  | integer value => value == 0
  | double value => value.magnitude.isZero

/-- The number as an exact quotient, the denominator positive. -/
def ratio : Number → Int × Nat
  | integer value => (value, 1)
  | double value =>
    let (num, den) := value.magnitude.ratio
    (if value.negative then -(num : Int) else num, den)

/-- Do two numbers have the same value?  An integer equals a double of the
same value, and the two zeros are equal. -/
def sameValue (a b : Number) : Bool :=
  a.ratio.1 * b.ratio.2 == b.ratio.1 * a.ratio.2

/-- The text of a number in a document. -/
def text : Number → String
  | integer value => toString value
  | double value => value.text jsonLayout

end Number

/-! ## values -/

/-- A JSON value. -/
inductive Json where
  | null
  | boolean (value : Bool)
  | number (value : Number)
  | string (value : String)
  | array (items : List Json)
  | object (fields : List (String × Json))
deriving Inhabited

namespace Json

def ofInt (n : Int) : Json := .number (.integer n)

def ofNat (n : Nat) : Json := .ofInt n

/-- A value that may be absent, `null` standing for absence. -/
def ofOption : Option Json → Json
  | none => .null
  | some value => value

/-- Text that may be absent, `null` standing for absence. -/
def ofText? (text : Option String) : Json := .ofOption (text.map .string)

/-- The member of an object; nothing on any other value. -/
def get? (value : Json) (key : String) : Option Json :=
  match value with
  | object fields => fields.lookup key
  | _ => none

def asString? : Json → Option String
  | string value => some value
  | _ => none

theorem asString?_eq_some {value : Json} {text : String} :
    value.asString? = some text ↔ value = string text := by
  cases value <;> simp [asString?]

def asArray? : Json → Option (List Json)
  | array items => some items
  | _ => none

def asObject? : Json → Option (List (String × Json))
  | object fields => some fields
  | _ => none

/-- The text of a string member. -/
def textMember? (value : Json) (key : String) : Option String :=
  (value.get? key).bind asString?

/-- Neither `null`, `false`, zero nor the empty text. -/
def isTruthy : Json → Bool
  | null => false
  | boolean value => value
  | number value => !value.isZero
  | string value => value ≠ ""
  | array _ => true
  | object _ => true

/-! ## equality of values -/

mutual

/-- Equality as the schema check takes it: numbers by value, objects field
by field in document order. -/
def sameValue : Json → Json → Bool
  | null, null => true
  | boolean a, boolean b => a == b
  | number a, number b => a.sameValue b
  | string a, string b => a == b
  | array as, array bs => sameItems as bs
  | object as, object bs => sameFields as bs
  | _, _ => false

def sameItems : List Json → List Json → Bool
  | [], [] => true
  | a :: as, b :: bs => sameValue a b && sameItems as bs
  | _, _ => false

/-- Equality field by field, of keys and of values. -/
def sameFields : List (String × Json) → List (String × Json) → Bool
  | [], [] => true
  | (key, a) :: as, (other, b) :: bs => key == other && sameValue a b && sameFields as bs
  | _, _ => false

end

/-! ## repeated keys -/

mutual

/-- The value with repeated keys merged everywhere: a repeated key keeps
its first place and its last value. -/
def mergeKeys : Json → Json
  | array items => array (mergeItems items)
  | object fields => object (mergeFields [] fields)
  | value => value

def mergeItems : List Json → List Json
  | [] => []
  | item :: items => mergeKeys item :: mergeItems items

/-- Adds fields, merged, to those already taken. -/
def mergeFields (taken : List (String × Json)) : List (String × Json) → List (String × Json)
  | [] => taken
  | (key, value) :: fields => mergeFields (putEntry key (mergeKeys value) taken) fields

end

end Json

end FormCompiler
