import FormCompiler.Json.Binary64

/-!
# FormCompiler.Json.Shortest

The shortest decimal text of a binary64 value.  For one, two, … seventeen
digits the two neighbours of the value on that decimal grid are tested; the
first grid with a neighbour that rounds back to the value wins, of two such
neighbours the nearer, and the even one when both are equally near.  The
layout of the digits is a `DecimalLayout`: values whose decimal point falls
near the digits are written out, others in scientific form.
-/

namespace FormCompiler

/-- Digits and a power of ten, `digits · 10 ^ power`. -/
structure Decimal where
  digits : Nat
  power : Int
deriving DecidableEq, Repr

namespace Decimal

/-- The decimal as a quotient of naturals. -/
def ratio (d : Decimal) : Nat × Nat :=
  if d.power < 0 then (d.digits, Nat.pow 10 d.power.natAbs)
  else (d.digits * Nat.pow 10 d.power.toNat, 1)

/-- The same number without trailing zero digits; `fuel` bounds their
number. -/
def stripZeros : Nat → Decimal → Decimal
  | 0, d => d
  | fuel + 1, d =>
    if d.digits ≠ 0 ∧ d.digits % 10 = 0 then stripZeros fuel ⟨d.digits / 10, d.power + 1⟩ else d

end Decimal

namespace Magnitude

/-- The least `j ≥ start` with `num · 10 ^ j ≥ den`, sought for `fuel`
steps. -/
def leastScale (num den : Nat) : Nat → Nat → Nat
  | 0, start => start
  | fuel + 1, start =>
    if num * Nat.pow 10 start ≥ den then start else leastScale num den fuel (start + 1)

/-- The decimal exponent of the leading digit of a positive magnitude. -/
def leadingExponent (m : Magnitude) : Int :=
  let (num, den) := m.ratio
  if num ≥ den then ((Nat.toDigits 10 (num / den)).length : Int) - 1
  else -(leastScale num den 400 1 : Int)

/-- The neighbours below and above on the grid of multiples of
`10 ^ power`, the nearer one first and the even one first on a tie. -/
def gridNeighbours (m : Magnitude) (power : Int) : List Decimal :=
  let (num, den) := m.ratio
  let (n, d) := inUnits 10 num den power
  let floor := n / d
  let rest := n % d
  if 2 * rest < d || (2 * rest == d && floor % 2 == 0) then [⟨floor, power⟩, ⟨floor + 1, power⟩]
  else [⟨floor + 1, power⟩, ⟨floor, power⟩]

/-- Does the decimal round to the magnitude? -/
def readsBack (m : Magnitude) (d : Decimal) : Bool :=
  ofRatio? d.ratio.1 d.ratio.2 == some m

/-- The magnitude written out exactly; every binary fraction ends in
decimal too. -/
def exactDecimal (m : Magnitude) : Decimal :=
  if m.exponent < 0 then ⟨m.significand * Nat.pow 5 m.exponent.natAbs, m.exponent⟩
  else ⟨m.significand * Nat.pow 2 m.exponent.toNat, 0⟩

/-- The first neighbour that reads back, on grids of `size`, `size + 1`, …
digits, `count` grids in all. -/
def shortestFrom (m : Magnitude) (leading : Int) : Nat → Nat → Decimal
  | 0, _ => m.exactDecimal
  | count + 1, size =>
    match (m.gridNeighbours (leading - size + 1)).find? m.readsBack with
    | some d => d
    | none => shortestFrom m leading count (size + 1)

/-- The shortest decimal that rounds to a positive magnitude. -/
def shortest (m : Magnitude) : Decimal :=
  (m.shortestFrom m.leadingExponent 17 1).stripZeros 400

end Magnitude

/-- How the digits of a decimal are laid out. -/
structure DecimalLayout where
  /-- The number is written out when its point stands after more than
  this many places (counted from the first digit) … -/
  least : Int
  /-- … and after at most this many. -/
  most : Int
  /-- What stands before an exponent that is not negative. -/
  plus : String
deriving DecidableEq, Repr

/-- JSON documents write a number out from `0.00001` up to sixteen digits
before the point, always with a point, and otherwise give the exponent its
sign and no more digits than it needs. -/
def jsonLayout : DecimalLayout := ⟨-5, 16, "+"⟩

/-- The text of `count` zeros. -/
def zeros (count : Nat) : String := String.ofList (List.replicate count '0')

/-- The digits of a decimal under a layout. -/
def Decimal.text (layout : DecimalLayout) (d : Decimal) : String :=
  let digits := Nat.toDigits 10 d.digits
  let point := d.power + digits.length
  if layout.least < point ∧ point ≤ layout.most then
    if 0 ≤ d.power then String.ofList digits ++ zeros d.power.toNat ++ ".0"
    else if 0 < point then
      String.ofList (digits.take point.toNat) ++ "." ++ String.ofList (digits.drop point.toNat)
    else "0." ++ zeros point.natAbs ++ String.ofList digits
  else
    let tail := digits.drop 1
    String.ofList (digits.take 1) ++ (if tail.isEmpty then "" else "." ++ String.ofList tail) ++
      "e" ++ (if point ≤ 0 then "" else layout.plus) ++ toString (point - 1)

/-- The shortest text of a binary64 value under a layout. -/
def Binary64.text (layout : DecimalLayout) (x : Binary64) : String :=
  (if x.negative then "-" else "") ++
    (if x.magnitude.isZero then "0.0" else x.magnitude.shortest.text layout)

end FormCompiler
