import ScriptAssembly.Text.Basic
/-
What kind of function a body belongs to.

A kind is a byte of flags. Bits without a meaning are kept as they are, and
shown behind the known flags.
-/
namespace ScriptAssembly

/-- The flags of a function. -/
structure FunctionKind where
  bits : UInt8
  deriving DecidableEq, Repr

namespace FunctionKind

/-- No flag at all: an ordinary function. -/
def plain : FunctionKind := ⟨0⟩

def async : FunctionKind := ⟨0x01⟩
def generator : FunctionKind := ⟨0x02⟩
def arrow : FunctionKind := ⟨0x04⟩
def method : FunctionKind := ⟨0x08⟩

/-- The body of a module or script. -/
def moduleEntry : FunctionKind := ⟨0x10⟩

/-- Whether every flag of `flags` is set. -/
def has (k flags : FunctionKind) : Bool := k.bits &&& flags.bits == flags.bits

/-- The flags that have a meaning, in the order of their bits, with their names. -/
def flags : List (FunctionKind × String) :=
  [(async, "ASYNC"), (generator, "GENERATOR"), (arrow, "ARROW"), (method, "METHOD"),
    (moduleEntry, "MODULE_ENTRY")]

/-- The bits that have a meaning. -/
def knownBits : UInt8 := flags.foldl (fun b f => b ||| f.1.bits) 0

/-- The known flags of a kind alone. -/
def truncate (k : FunctionKind) : FunctionKind := ⟨k.bits &&& knownBits⟩

/-- Whether every set bit has a meaning. -/
def isKnown (k : FunctionKind) : Bool := k.truncate == k

def isEmpty (k : FunctionKind) : Bool := k.bits == 0

/-- Bits in hexadecimal. -/
def hexBits (bits : UInt8) : String := "0x" ++ String.ofList (Text.hexDigits bits.toNat)

/-- The names of the flags that are set, then the bits without a meaning. -/
def parts (k : FunctionKind) : List String :=
  let unknown := k.bits &&& ~~~knownBits
  ((flags.filter fun f => k.has f.1).map (·.2)) ++ (if unknown = 0 then [] else [hexBits unknown])

/-- The kind in listings. -/
def describe (k : FunctionKind) : String :=
  let inner := if k.isEmpty then hexBits 0 else " | ".intercalate k.parts
  "FunctionKind(" ++ inner ++ ")"

end FunctionKind

end ScriptAssembly
