/-!
# FormCompiler.Json.Binary64

Finite binary64 values as exact naturals.  A magnitude is a pair
`(significand, exponent)` standing for `significand · 2 ^ exponent` in the
one form that binary64 gives it:

1. `2 ^ 52 ≤ significand < 2 ^ 53` and `-1074 < exponent ≤ 971`, or
2. `significand < 2 ^ 53` and `exponent = -1074`.

Every operation computes the exact quotient of two naturals and rounds it
once, to the nearest magnitude and to the even significand on a tie
(`Magnitude.ofRatio?`).
-/

namespace FormCompiler

/-- A non-negative binary64 magnitude, `significand · 2 ^ exponent`. -/
structure Magnitude where
  significand : Nat
  exponent : Int
deriving DecidableEq, Repr

namespace Magnitude

/-- What significands stay below: two to the power of 53. -/
def significandLimit : Nat := 9007199254740992

def zero : Magnitude := ⟨0, -1074⟩

def isZero (m : Magnitude) : Bool := m.significand == 0

/-- The magnitude as a quotient of naturals, the denominator positive. -/
def ratio (m : Magnitude) : Nat × Nat :=
  if m.exponent < 0 then (m.significand, Nat.pow 2 m.exponent.natAbs)
  else (m.significand * Nat.pow 2 m.exponent.toNat, 1)

/-- The quotient `num / den` in units of `base ^ exponent`. -/
def inUnits (base num den : Nat) (exponent : Int) : Nat × Nat :=
  if exponent < 0 then (num * Nat.pow base exponent.natAbs, den)
  else (num, den * Nat.pow base exponent.toNat)

/-- `num / den` rounded to an integer, a half going to the even neighbour. -/
def roundHalfEven (num den : Nat) : Nat :=
  let floor := num / den
  let rest := num % den
  if 2 * rest > den || (2 * rest == den && floor % 2 == 1) then floor + 1 else floor

/-- The exponent that binary64 uses for `num / den`: the least one, not
below -1074, under which the significand stays below `2 ^ 53`. -/
def unitExponent (num den : Nat) : Int :=
  let guess := max ((Nat.log2 num : Int) - (Nat.log2 den : Int) - 53) (-1074)
  let scaled := inUnits 2 num den guess
  if scaled.1 / scaled.2 < significandLimit then guess else guess + 1

/-- The magnitude nearest to `num / den`, the even significand on a tie;
nothing when it would exceed the largest finite magnitude. -/
def ofRatio? (num den : Nat) : Option Magnitude :=
  if num = 0 then some zero
  else
    let exponent := unitExponent num den
    let scaled := inUnits 2 num den exponent
    let rounded := roundHalfEven scaled.1 scaled.2
    let m : Magnitude :=
      if rounded = significandLimit then ⟨significandLimit / 2, exponent + 1⟩
      else ⟨rounded, exponent⟩
    if 971 < m.exponent then none else some m

/-- The magnitude nearest to a natural number. -/
def ofNat? (n : Nat) : Option Magnitude := ofRatio? n 1

/-- The rounded product. -/
def mul? (a b : Magnitude) : Option Magnitude :=
  ofRatio? (a.ratio.1 * b.ratio.1) (a.ratio.2 * b.ratio.2)

/-- The rounded quotient; the divisor is meant to be positive. -/
def div? (a b : Magnitude) : Option Magnitude :=
  ofRatio? (a.ratio.1 * b.ratio.2) (a.ratio.2 * b.ratio.1)

/-- The magnitude nearest to `10 ^ k`. -/
def powerOfTen? (k : Nat) : Option Magnitude := ofNat? (Nat.pow 10 k)

/-- Divides by the magnitude nearest to `10 ^ 308`, `steps` times or until
nothing is left. -/
def divideByHugePowers : Nat → Magnitude → Option Magnitude
  | 0, m => some m
  | steps + 1, m =>
    if m.isZero then some m
    else do divideByHugePowers steps (← m.div? (← powerOfTen? 308))

/-- A decimal significand scaled by a power of ten, in at most a few
rounded steps: the significand is rounded, exponents below -308 are first
brought up by divisions by `10 ^ 308`, and one multiplication or division
by the rounded power of ten ends it.  Nothing when the value is too large
for a finite magnitude. -/
def ofDecimal? (significand : Nat) (exponent : Int) : Option Magnitude := do
  let start ← ofNat? significand
  if start.isZero then some zero
  else if 0 ≤ exponent then
    if 308 < exponent then none else start.mul? (← powerOfTen? exponent.toNat)
  else
    let excess := exponent.natAbs - 308
    let steps := (excess + 307) / 308
    let lifted ← divideByHugePowers steps start
    if lifted.isZero then some zero
    else lifted.div? (← powerOfTen? (exponent.natAbs - 308 * steps))

end Magnitude

/-- A finite binary64 value: a sign and a magnitude. -/
structure Binary64 where
  negative : Bool
  magnitude : Magnitude
deriving DecidableEq, Repr

end FormCompiler
