/-
Floating point numbers of 64 bits, as their bit patterns.

A `Double` is its IEEE 754 word, so two of them are equal when every bit is.
`canonical` maps each double to the one that stands for its value: it merges
the two zeros, and all the patterns that are not a number.
-/
namespace ScriptAssembly

/-- A floating point number of 64 bits. -/
structure Double where
  bits : UInt64
  deriving DecidableEq, Repr

namespace Double

/-- Whether the sign bit is set. -/
def isNegative (x : Double) : Bool := x.bits >>> 63 == 1

/-- The eleven bits of the biased exponent. -/
def exponentBits (x : Double) : Nat := ((x.bits >>> 52) &&& 0x7ff).toNat

/-- The 52 bits behind the exponent. -/
def fractionBits (x : Double) : Nat := (x.bits &&& 0xfffffffffffff).toNat

def isNaN (x : Double) : Bool := x.exponentBits == 0x7ff && x.fractionBits != 0

def isInfinite (x : Double) : Bool := x.exponentBits == 0x7ff && x.fractionBits == 0

def isZero (x : Double) : Bool := x.exponentBits == 0 && x.fractionBits == 0

/-- The positive zero. -/
def zero : Double := ⟨0⟩

/-- The pattern that stands for everything that is not a number. -/
def nan : Double := ⟨0x7ff8000000000000⟩

/-- The pattern that stands for the value: one zero, and one NaN. -/
def canonical (x : Double) : Double :=
  if x.isNaN then nan else if x.isZero then zero else x

end Double

end ScriptAssembly
