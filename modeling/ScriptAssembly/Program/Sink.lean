import ScriptAssembly.Program.Listing
/-
The listing of a program, and where it goes.

A listing is printed where it is wanted. It can also be written to a sink,
which takes bytes until it is full; what did fit stays written.
-/
namespace ScriptAssembly

/-- The listing of a program. -/
def Program.listing (p : Program) (debug : Bool) : String :=
  Listing.ofTables debug p.literalArrays.toList p.records.toList p.functions.toList p.strings.toList

/-- The listing if it is wanted, and nothing otherwise. -/
def Program.listingIf (p : Program) (wanted debug : Bool) : String :=
  if wanted then p.listing debug else ""

/-! ## Sinks -/

/-- What a sink took of a text, and whether that was all of it. -/
structure Written where
  bytes : ByteArray
  complete : Bool

/-- Why a text is not written completely. -/
def Written.message (w : Written) : Option String :=
  if w.complete then none else some "failed to write whole buffer"

/-- Writes a text to a sink with room for `capacity` bytes. -/
def writeUpTo (capacity : Nat) (text : String) : Written :=
  let bytes := text.toUTF8
  ⟨bytes.extract 0 capacity, bytes.size ≤ capacity⟩

/-- Writes the listing of a program to a sink with room for `capacity` bytes. -/
def Program.writeListing (p : Program) (debug : Bool) (capacity : Nat) : Written :=
  writeUpTo capacity (p.listing debug)

end ScriptAssembly
