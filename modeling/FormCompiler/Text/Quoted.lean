import FormCompiler.Text.Unprintable

/-!
# FormCompiler.Text.Quoted

Texts quoted for a reader: between double quotes, with the quote and the
backslash escaped, line ends and tabs as letters, and unprintable characters
as their code point in braces.  A single quote stands for itself.
-/

namespace FormCompiler.Text

/-- A character as it stands in a quoted text. -/
def quoteChar (c : Char) : List Char :=
  if c = '\x00' then ['\\', '0']
  else if c = '\t' then ['\\', 't']
  else if c = '\r' then ['\\', 'r']
  else if c = '\n' then ['\\', 'n']
  else if c = '\\' then ['\\', '\\']
  else if c = '"' then ['\\', '"']
  else if isUnprintable c then ['\\', 'u', '\x7b'] ++ Nat.toDigits 16 c.toNat ++ ['\x7d']
  else [c]

def quoted (text : String) : String :=
  "\"" ++ String.ofList (text.toList.flatMap quoteChar) ++ "\""

end FormCompiler.Text
