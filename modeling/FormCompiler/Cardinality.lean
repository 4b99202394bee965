import FormCompiler.Text.Blank
import FormCompiler.Timestamp.Rfc3339

/-!
# FormCompiler.Cardinality

Cardinalities: `<n>` for exactly `n` items, or `<least>-<most>`, where
either bound may be missing.  A bound that is no 64-bit number is read as
missing, and what follows a second dash is ignored.
-/

namespace FormCompiler

/-- How many items there may be. -/
structure Cardinality where
  least : Option Nat
  most : Option Nat
deriving DecidableEq, Repr

namespace Cardinality

/-- No bound on either side. -/
def unbounded : Cardinality := ⟨none, none⟩

/-- What a bound stays below: two to the power of 64. -/
def limit : Nat := 18446744073709551616

/-- A 64-bit number, with blanks around it and a plus in front if need be. -/
def bound? (cs : List Char) : Option Nat :=
  let digits := match Text.trim cs with
    | '+' :: ds => ds
    | ds => ds
  if !digits.isEmpty && digits.all Char.isDigit && Timestamp.digitsValue digits < limit then
    some (Timestamp.digitsValue digits)
  else none

/-- Reads the text of a cardinality. -/
def parse (text : String) : Cardinality :=
  match Text.splitWhere (· = '-') text.toList with
  | least :: most :: _ => ⟨bound? least, bound? most⟩
  | _ => ⟨bound? text.toList, bound? text.toList⟩

/-- The cardinality of an attribute that may not declare one. -/
def parse? (text : Option String) : Cardinality := (text.map parse).getD unbounded

end Cardinality

/-- Is an attribute of this conformance optional?  Only `M`, in either
case, makes it mandatory. -/
def isOptional (conformance : Option String) : Bool :=
  match conformance with
  | some c => c.toList.map Char.toLower != ['m']
  | none => true

end FormCompiler
