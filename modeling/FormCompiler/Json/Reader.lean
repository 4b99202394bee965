import FormCompiler.Json.Basic

/-!
# FormCompiler.Json.Reader

Reading JSON text.  A step takes characters off the front of the text and
returns the rest; a failure keeps the text that was left, from which its
line and column are computed (`ReadFailure.locate`).  Lines count from one,
and a column is the number of bytes taken from its line.

Nesting is limited: `readValue depth` accepts at most `depth` arrays and
objects inside one another, and a document may have 127.  A number keeps as
many leading digits as fit 64 bits and scales them by the power of ten that
remains.
-/

namespace FormCompiler

/-! ## failures -/

/-- Why a text is not a JSON document. -/
inductive ReadFault where
  | endInValue
  | endInArray
  | endInObject
  | endInString
  | expectedColon
  | expectedArrayEnd
  | expectedObjectEnd
  | expectedLiteral
  | expectedValue
  | invalidEscape
  | invalidNumber
  | numberOutOfRange
  | controlCharacter
  | keyNotText
  | trailingComma
  | trailingCharacters
  | loneSurrogate
  | unpairedSurrogate
  | nestedTooDeep
deriving DecidableEq, Repr

def ReadFault.message : ReadFault → String
  | endInValue => "EOF while parsing a value"
  | endInArray => "EOF while parsing a list"
  | endInObject => "EOF while parsing an object"
  | endInString => "EOF while parsing a string"
  | expectedColon => "expected `:`"
  | expectedArrayEnd => "expected `,` or `]`"
  | expectedObjectEnd => "expected `,` or `\x7d`"
  | expectedLiteral => "expected ident"
  | expectedValue => "expected value"
  | invalidEscape => "invalid escape"
  | invalidNumber => "invalid number"
  | numberOutOfRange => "number out of range"
  | controlCharacter => "control character (\\u0000-\\u001F) found while parsing a string"
  | keyNotText => "key must be a string"
  | trailingComma => "trailing comma"
  | trailingCharacters => "trailing characters"
  | loneSurrogate => "lone leading surrogate in hex escape"
  | unpairedSurrogate => "unexpected end of hex escape"
  | nestedTooDeep => "recursion limit exceeded"

/-- A fault, the text that was left when it was met, and how many more
bytes had been examined. -/
structure ReadFailure where
  fault : ReadFault
  rest : List Char
  examined : Nat

/-- A fault with its place in the text. -/
structure ReadError where
  fault : ReadFault
  line : Nat
  column : Nat
deriving DecidableEq, Repr

/-- The wording of a fault with its place. -/
def ReadError.message (e : ReadError) : String :=
  e.fault.message ++ " at line " ++ toString e.line ++ " column " ++ toString e.column

/-- The number of bytes of a text. -/
def byteCount (cs : List Char) : Nat := cs.foldl (fun n c => n + c.utf8Size) 0

/-- The place of a failure in the text that was read. -/
def ReadFailure.locate (text : String) (failure : ReadFailure) : ReadError :=
  let taken := text.utf8ByteSize - byteCount failure.rest + failure.examined
  let front := text.toUTF8.toList.take taken
  ⟨failure.fault, 1 + front.count 10, (front.reverse.takeWhile (· ≠ 10)).length⟩

/-- A step that takes characters off the front of a text. -/
abbrev ReadStep (α : Type) := List Char → Except ReadFailure (α × List Char)

namespace Json

/-- Fails where the text stands. -/
def failHere {α : Type} (fault : ReadFault) (rest : List Char) : Except ReadFailure α :=
  .error ⟨fault, rest, 0⟩

/-- Fails on the next byte. -/
def failNext {α : Type} (fault : ReadFault) (rest : List Char) : Except ReadFailure α :=
  .error ⟨fault, rest, if rest.isEmpty then 0 else 1⟩

/-- The characters that may stand between tokens. -/
def isSpace (c : Char) : Bool := c = ' ' || c = '\n' || c = '\t' || c = '\r'

/-- The text from its first token on. -/
def skipSpaces (cs : List Char) : List Char := cs.dropWhile isSpace

/-! ## literals -/

/-- Takes the remaining letters of a literal. -/
def readLetters (value : Json) : List Char → ReadStep Json
  | [], rest => .ok (value, rest)
  | _ :: _, [] => failHere .endInValue []
  | letter :: letters, c :: rest =>
    if c = letter then readLetters value letters rest else failNext .expectedLiteral (c :: rest)

/-! ## strings -/

def hexDigit? (c : Char) : Option Nat :=
  if '0' ≤ c ∧ c ≤ '9' then some (c.toNat - '0'.toNat)
  else if 'a' ≤ c ∧ c ≤ 'f' then some (c.toNat - 'a'.toNat + 10)
  else if 'A' ≤ c ∧ c ≤ 'F' then some (c.toNat - 'A'.toNat + 10)
  else none

def hexQuad? (a b c d : Char) : Option Nat := do
  return (((← hexDigit? a) * 16 + (← hexDigit? b)) * 16 + (← hexDigit? c)) * 16 + (← hexDigit? d)

/-- The failure of text that does not begin with four hexadecimal digits:
the four bytes examined are no digits, or there are not four. -/
def failHex {α : Type} (rest : List Char) : Except ReadFailure α :=
  if byteCount rest < 4 then failHere .endInString [] else .error ⟨.invalidEscape, rest, 4⟩

/-- The character of a one-letter escape. -/
def escapeLetter? (c : Char) : Option Char :=
  if c = '"' ∨ c = '\\' ∨ c = '/' then some c
  else if c = 'b' then some '\x08'
  else if c = 'f' then some '\x0c'
  else if c = 'n' then some '\n'
  else if c = 'r' then some '\r'
  else if c = 't' then some '\t'
  else none

/-- Puts a character in front of the text that a step has read. -/
def prepend (c : Char) (read : Except ReadFailure (List Char × List Char)) :
    Except ReadFailure (List Char × List Char) :=
  read.map fun result => (c :: result.1, result.2)

/-- A text up to its closing quote.  Escaped UTF-16 surrogates must come in
pairs. -/
def readString : ReadStep (List Char)
  | [] => failHere .endInString []
  | '"' :: rest => .ok ([], rest)
  | '\\' :: 'u' :: a :: b :: c :: d :: rest =>
    match hexQuad? a b c d with
    | none => failHex (a :: b :: c :: d :: rest)
    | some high =>
      if 0xDC00 ≤ high ∧ high ≤ 0xDFFF then failHere .loneSurrogate rest
      else if high < 0xD800 ∨ 0xDBFF < high then prepend (Char.ofNat high) (readString rest)
      else match rest with
        | '\\' :: 'u' :: e :: f :: g :: h :: rest =>
          match hexQuad? e f g h with
          | none => failHex (e :: f :: g :: h :: rest)
          | some low =>
            if low < 0xDC00 ∨ 0xDFFF < low then failHere .loneSurrogate rest
            else
              prepend (Char.ofNat ((high - 0xD800) * 0x400 + (low - 0xDC00) + 0x10000))
                (readString rest)
        | '\\' :: 'u' :: rest => failHex rest
        | '\\' :: [] => failHere .endInString []
        | '\\' :: rest => failNext .unpairedSurrogate rest
        | [] => failHere .endInString []
        | rest => failNext .unpairedSurrogate rest
  | '\\' :: 'u' :: rest => failHex rest
  | '\\' :: [] => failHere .endInString []
  | '\\' :: c :: rest =>
    match escapeLetter? c with
    | none => failNext .invalidEscape (c :: rest)
    | some escaped => prepend escaped (readString rest)
  | c :: rest =>
    if c.toNat < 0x20 then failNext .controlCharacter (c :: rest)
    else prepend c (readString rest)

/-! ## numbers -/

def digitValue (c : Char) : Nat := c.toNat - '0'.toNat

/-- What a significand stays below: two to the power of 64. -/
def wordLimit : Nat := 18446744073709551616

/-- What an exponent stays below: two to the power of 31. -/
def exponentLimit : Nat := 2147483648

/-- Extends a significand by digits as long as it fits 64 bits; returns the
digits left over. -/
def extendSignificand (significand : Nat) : List Char → Nat × List Char
  | [] => (significand, [])
  | d :: ds =>
    if significand * 10 + digitValue d < wordLimit then
      extendSignificand (significand * 10 + digitValue d) ds
    else (significand, d :: ds)

/-- A scaled significand as a number. -/
def scaledNumber (negative : Bool) (significand : Nat) (exponent : Int) : ReadStep Json :=
  fun rest =>
    match Magnitude.ofDecimal? significand exponent with
    | none => failHere .numberOutOfRange rest
    | some magnitude => .ok (.number (.double ⟨negative, magnitude⟩), rest)

/-- Takes the digits of an exponent while it stays below its limit; the
second component is the text after the digit that brought it over. -/
def readExponentDigits (value : Nat) : List Char → Nat × Option (List Char) × List Char
  | [] => (value, none, [])
  | c :: rest =>
    if c.isDigit then
      if value * 10 + digitValue c < exponentLimit then
        readExponentDigits (value * 10 + digitValue c) rest
      else (value, some rest, rest.dropWhile Char.isDigit)
    else (value, none, c :: rest)

/-- A number from its exponent on, after the `e`. -/
def readExponent (negative : Bool) (significand : Nat) (exponent : Int) : ReadStep Json :=
  fun text =>
    let (down, digits) := match text with
      | '+' :: rest => (false, rest)
      | '-' :: rest => (true, rest)
      | rest => (false, rest)
    match digits with
    | [] => failHere .endInValue []
    | c :: _ =>
      if !c.isDigit then failNext .invalidNumber digits
      else match readExponentDigits 0 digits with
        | (_, some excess, rest) =>
          if significand ≠ 0 ∧ !down then failHere .numberOutOfRange excess
          else .ok (.number (.double ⟨negative, .zero⟩), rest)
        | (value, none, rest) =>
          scaledNumber negative significand
            (if down then exponent - value else exponent + value) rest

/-- A number after its digits before and behind the point. -/
def readScale (negative : Bool) (significand : Nat) (exponent : Int) : ReadStep Json
  | 'e' :: rest => readExponent negative significand exponent rest
  | 'E' :: rest => readExponent negative significand exponent rest
  | rest => scaledNumber negative significand exponent rest

/-- A number after its point. -/
def readFraction (negative : Bool) (significand : Nat) (exponent : Int) : ReadStep Json :=
  fun text =>
    let digits := text.takeWhile Char.isDigit
    let rest := text.dropWhile Char.isDigit
    if digits.isEmpty then
      failNext (if rest.isEmpty then .endInValue else .invalidNumber) rest
    else
      let (extended, unread) := extendSignificand significand digits
      readScale negative extended (exponent - (digits.length - unread.length : Nat)) rest

/-- A number from its first digit on. -/
def readNumber (negative : Bool) : ReadStep Json
  | [] => failHere .endInValue []
  | '0' :: c :: rest =>
    if c.isDigit then failNext .invalidNumber (c :: rest)
    else readTail ['0'] (c :: rest)
  | text =>
    let digits := text.takeWhile Char.isDigit
    if digits.isEmpty then failNext .invalidNumber text
    else readTail digits (text.dropWhile Char.isDigit)
where
  /-- A number after its digits before the point: an integer where it fits,
  unless it is a negative zero. -/
  readTail (digits : List Char) : ReadStep Json := fun rest =>
    let (significand, unread) := extendSignificand 0 digits
    match rest with
    | '.' :: rest => readFraction negative significand unread.length rest
    | 'e' :: rest => readExponent negative significand unread.length rest
    | 'E' :: rest => readExponent negative significand unread.length rest
    | rest =>
      if unread.isEmpty ∧ !negative then .ok (.number (.integer significand), rest)
      else if unread.isEmpty ∧ 1 ≤ significand ∧ significand ≤ wordLimit / 2 then
        .ok (.number (.integer (-(significand : Int))), rest)
      else scaledNumber negative significand unread.length rest

/-! ## arrays and objects -/

/-- The items of an array whose first item is to come.  Every item takes a
character, so `fuel` may be the length of the text. -/
def readItems (one : ReadStep Json) : Nat → List Json → ReadStep Json
  | 0, _, text => failHere .endInArray text
  | fuel + 1, items, text => do
    let (item, rest) ← one text
    match skipSpaces rest with
    | [] => failHere .endInArray []
    | ']' :: rest => .ok (.array (item :: items).reverse, rest)
    | ',' :: rest =>
      match skipSpaces rest with
      | [] => failHere .endInValue []
      | ']' :: rest => failNext .trailingComma (']' :: rest)
      | rest => readItems one fuel (item :: items) rest
    | rest => failNext .expectedArrayEnd rest

/-- The fields of an object after the quote that opens a key. -/
def readFields (one : ReadStep Json) : Nat → List (String × Json) → ReadStep Json
  | 0, _, text => failHere .endInObject text
  | fuel + 1, fields, text => do
    let (key, rest) ← readString text
    match skipSpaces rest with
    | [] => failHere .endInObject []
    | ':' :: rest =>
      let (value, rest) ← one (skipSpaces rest)
      let fields := putEntry (String.ofList key) value fields
      match skipSpaces rest with
      | [] => failHere .endInObject []
      | '}' :: rest => .ok (.object fields, rest)
      | ',' :: rest =>
        match skipSpaces rest with
        | [] => failHere .endInValue []
        | '"' :: rest => readFields one fuel fields rest
        | '}' :: rest => failNext .trailingComma ('}' :: rest)
        | rest => failNext .keyNotText rest
      | rest => failNext .expectedObjectEnd rest
    | rest => failNext .expectedColon rest

/-- A value, with at most `depth` arrays and objects inside one another. -/
def readValue (depth : Nat) : ReadStep Json := fun text =>
  match skipSpaces text with
  | [] => failHere .endInValue []
  | 'n' :: rest => readLetters .null ['u', 'l', 'l'] rest
  | 't' :: rest => readLetters (.boolean true) ['r', 'u', 'e'] rest
  | 'f' :: rest => readLetters (.boolean false) ['a', 'l', 's', 'e'] rest
  | '-' :: rest => readNumber true rest
  | '"' :: rest => do
    let (value, rest) ← readString rest
    .ok (.string (String.ofList value), rest)
  | '[' :: rest =>
    match depth with
    | 0 => failNext .nestedTooDeep ('[' :: rest)
    | depth + 1 =>
      match skipSpaces rest with
      | [] => failHere .endInArray []
      | ']' :: rest => .ok (.array [], rest)
      | rest => readItems (readValue depth) rest.length [] rest
  | '{' :: rest =>
    match depth with
    | 0 => failNext .nestedTooDeep ('{' :: rest)
    | depth + 1 =>
      match skipSpaces rest with
      | [] => failHere .endInObject []
      | '}' :: rest => .ok (.object [], rest)
      | '"' :: rest => readFields (readValue depth) (rest.length + 1) [] rest
      | rest => failNext .keyNotText rest
  | c :: rest =>
    if c.isDigit then readNumber false (c :: rest) else failNext .expectedValue (c :: rest)

/-- The greatest number of arrays and objects inside one another. -/
def nestingLimit : Nat := 127

/-- Reads a whole text as one JSON document. -/
def read (text : String) : Except ReadError Json :=
  match readValue nestingLimit text.toList with
  | .error failure => .error (failure.locate text)
  | .ok (value, rest) =>
    match skipSpaces rest with
    | [] => .ok value
    | rest => .error ((⟨.trailingCharacters, rest, 1⟩ : ReadFailure).locate text)

end Json

end FormCompiler
