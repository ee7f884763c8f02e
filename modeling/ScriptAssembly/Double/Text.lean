import ScriptAssembly.Double.Basic
import ScriptAssembly.Text.Basic
/-
The text of a double.

A double is written with the fewest digits that read back as it. From 10^-4
up to 10^16 it is positional, with at least one decimal (`2.0`, `0.0001`);
outside that range it is scientific with one digit before the point, and no
point where no digit follows (`1e16`, `1.5e-10`). Zero keeps its sign, and
what is not a number has none.

Every finite double, and every boundary between two of them, is a natural
multiple of 10^-1076, so the fewest digits are a matter of exact arithmetic on
natural numbers. A decimal grid is the set of multiples of a power of ten. The
coarsest grid with a point that rounds to the double has the decimals with
the fewest digits, and of its two points next to the double the nearer one is
taken, on a tie the upper one.
-/
namespace ScriptAssembly.Double

/-! ## The shortest decimal -/

/-- The decimal `coefficient · 10^exponent`. -/
structure Decimal where
  coefficient : Nat
  exponent : Int
  deriving DecidableEq, Repr

/-- Decimal places of the common unit 10^-1076. -/
def places : Nat := 1076

/-- The reals that round to a double, in units of 10^-1076: those between `low` and `high`, and the
two ends if `closed`. -/
structure Rounding where
  value : Nat
  low : Nat
  high : Nat
  closed : Bool
  deriving DecidableEq, Repr

namespace Rounding

def contains (r : Rounding) (x : Nat) : Bool :=
  if r.closed then r.low ≤ x && x ≤ r.high else r.low < x && x < r.high

/-- The rounding interval of the magnitude of a finite double. The gap below a power of two is half
the gap above it, and a tie between two doubles goes to the even significand. -/
def ofFinite (x : Double) : Rounding :=
  let subnormal := x.exponentBits == 0
  let m := if subnormal then x.fractionBits else Nat.pow 2 52 + x.fractionBits
  let quarter := Nat.pow 2 (x.exponentBits - 1) * Nat.pow 5 places
  let below := if x.fractionBits == 0 && 1 < x.exponentBits then 1 else 2
  { value := 4 * m * quarter
    low := (4 * m - below) * quarter
    high := (4 * m + 2) * quarter
    closed := m % 2 == 0 }

/-- How many times `step` goes into the interval's point of the grid of multiples of `step` that is
nearest to the value, the upper one on a tie; none if no point of the grid is in the interval. -/
def nearest? (r : Rounding) (step : Nat) : Option Nat :=
  let n := r.value / step
  let down := r.contains (n * step)
  let up := r.contains ((n + 1) * step)
  if up && (!down || step ≤ 2 * (r.value % step)) then some (n + 1)
  else if down then some n
  else none

/-- The nearest point of the coarsest grid, from 10^`n` units downwards, that has one in the
interval. -/
def coarsest (r : Rounding) : Nat → Decimal
  | 0 => ⟨r.value, -(places : Int)⟩
  | n + 1 =>
    match r.nearest? (Nat.pow 10 (n + 1)) with
    | some c => ⟨c, (n + 1 : Int) - places⟩
    | none => r.coarsest n

end Rounding

/-- The shortest decimal that rounds to the magnitude of a finite double other than zero. -/
def shortest (x : Double) : Decimal :=
  let r := Rounding.ofFinite x
  r.coarsest (places + (Nat.toDigits 10 (r.value / Nat.pow 10 places)).length)

/-! ## Text -/

/-- The exponents `p` of a number 0.ddd · 10^p, its first digit not zero, that is written
positionally. -/
def isPositional (p : Int) : Bool := -3 ≤ p && p ≤ 16

/-- The number 0.ddd · 10^p written out around its point. -/
def positional (digits : List Char) (p : Int) : List Char :=
  if p ≤ 0 then '0' :: '.' :: (List.replicate p.natAbs '0' ++ digits)
  else if digits.length ≤ p.toNat then
    digits ++ List.replicate (p.toNat - digits.length) '0' ++ ['.', '0']
  else digits.take p.toNat ++ '.' :: digits.drop p.toNat

/-- The number 0.ddd · 10^p with one digit before its point and a power of ten. -/
def scientific (digits : List Char) (p : Int) : List Char :=
  let fraction := digits.drop 1
  digits.take 1 ++ (if fraction.isEmpty then [] else '.' :: fraction)
    ++ 'e' :: (Text.signedDecimal (p - 1)).toList

/-- The magnitude of a decimal, its coefficient not zero. -/
def Decimal.text (d : Decimal) : List Char :=
  let digits := Nat.toDigits 10 d.coefficient
  let p := d.exponent + digits.length
  if isPositional p then positional digits p else scientific digits p

/-- The magnitude of a double that is a number. -/
def magnitudeText (x : Double) : List Char :=
  if x.isInfinite then ['i', 'n', 'f']
  else if x.isZero then ['0', '.', '0']
  else x.shortest.text

/-- The text of a double. -/
def text (x : Double) : String :=
  if x.isNaN then "NaN"
  else if x.isNegative then String.ofList ('-' :: x.magnitudeText)
  else String.ofList x.magnitudeText

end ScriptAssembly.Double
