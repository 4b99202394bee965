import FormCompiler.Json.Basic

/-!
# FormCompiler.Json.Printer

JSON text.  Two layouts are offered:

1. `Json.compact` writes no blank at all;
2. `Json.pretty` puts every item and field on a line of its own, indented by
   two blanks for each level, with one blank after a colon; an empty array
   or object stays on its line.

Strings escape the quote, the backslash and the control characters below
U+0020, and nothing else.
-/

namespace FormCompiler.Json

/-! ## strings -/

/-- The two lower-case hexadecimal digits of a number below 256. -/
def hexPair (n : Nat) : List Char := [Nat.digitChar (n / 16 % 16), Nat.digitChar (n % 16)]

/-- A character as it stands between quotes. -/
def escapeChar (c : Char) : List Char :=
  if c = '"' then ['\\', '"']
  else if c = '\\' then ['\\', '\\']
  else if c = '\x08' then ['\\', 'b']
  else if c = '\x0c' then ['\\', 'f']
  else if c = '\n' then ['\\', 'n']
  else if c = '\r' then ['\\', 'r']
  else if c = '\t' then ['\\', 't']
  else if c.toNat < 0x20 then ['\\', 'u', '0', '0'] ++ hexPair c.toNat
  else [c]

def quote (text : String) : String :=
  "\"" ++ String.ofList (text.toList.flatMap escapeChar) ++ "\""

/-! ## compact text -/

mutual

/-- The text of a value without blanks. -/
def compact : Json → String
  | null => "null"
  | boolean value => if value then "true" else "false"
  | number value => value.text
  | string value => quote value
  | array items => "[" ++ String.intercalate "," (compactItems items) ++ "]"
  | object fields => "\x7b" ++ String.intercalate "," (compactFields fields) ++ "\x7d"

def compactItems : List Json → List String
  | [] => []
  | item :: items => compact item :: compactItems items

def compactFields : List (String × Json) → List String
  | [] => []
  | (key, value) :: fields => (quote key ++ ":" ++ compact value) :: compactFields fields

end

/-! ## indented text -/

/-- A line break followed by the indentation of a level. -/
def newline (level : Nat) : String :=
  String.ofList ('\n' :: List.replicate (2 * level) ' ')

mutual

/-- The indented text of a value whose first character stands at `level`. -/
def prettyAt (level : Nat) : Json → String
  | array [] => "[]"
  | array items =>
    "[" ++ String.intercalate "," (prettyItems (level + 1) items) ++ newline level ++ "]"
  | object [] => "\x7b\x7d"
  | object fields =>
    "\x7b" ++ String.intercalate "," (prettyFields (level + 1) fields) ++ newline level ++ "\x7d"
  | value => compact value

/-- The texts of items, each on a line of its own. -/
def prettyItems (level : Nat) : List Json → List String
  | [] => []
  | item :: items => (newline level ++ prettyAt level item) :: prettyItems level items

/-- The texts of fields, each on a line of its own. -/
def prettyFields (level : Nat) : List (String × Json) → List String
  | [] => []
  | (key, value) :: fields =>
    (newline level ++ quote key ++ ": " ++ prettyAt level value) :: prettyFields level fields

end

/-- The indented text of a document. -/
def pretty (value : Json) : String := prettyAt 0 value

end FormCompiler.Json
