import ScriptAssembly.Draft.Basic
import ScriptAssembly.Text.Basic
/-
What can be wrong with a draft.

A fault names the label, buffer or operand at fault; an `EmissionError` adds
the function. Opcodes and operand kinds are given by the names under which
messages show them.
-/
namespace ScriptAssembly

namespace Emission

/-- A defect of a draft. -/
inductive Fault
  /-- A label is used and never placed. -/
  | unboundLabel (label : Draft.Label)
  /-- Two buffers have one id. -/
  | duplicateBuffer (id : UInt32)
  /-- An instruction names a buffer that is not there. -/
  | unknownBuffer (id : UInt32)
  /-- An instruction has too many operands or too few. -/
  | operandCount (mnemonic : String) (expected found : Nat)
  /-- An operand does not fit its slot. -/
  | operandKind (mnemonic : String) (index : Nat) (expected found : String)
  deriving DecidableEq, Repr

def Fault.message : Fault → String
  | unboundLabel l => "label " ++ l.text ++ " is never placed"
  | duplicateBuffer id =>
    "literal buffer " ++ Text.decimal id.toNat ++ " defined more than once"
  | unknownBuffer id => "literal buffer " ++ Text.decimal id.toNat ++ " is not defined"
  | operandCount mnemonic expected found =>
    mnemonic ++ " expects " ++ Text.decimal expected ++ " operands, found " ++ Text.decimal found
  | operandKind mnemonic index expected found =>
    mnemonic ++ " operand " ++ Text.decimal index ++ " expects a " ++ expected ++ ", found a "
      ++ found

/-- The name of the fault's case. -/
def Fault.name : Fault → String
  | unboundLabel _ => "UnboundLabel"
  | duplicateBuffer _ => "DuplicateLiteralBuffer"
  | unknownBuffer _ => "UnknownLiteralBuffer"
  | operandCount .. => "OperandCountMismatch"
  | operandKind .. => "OperandKindMismatch"

/-- The details of a fault, by name. -/
def Fault.details : Fault → List (String × String)
  | unboundLabel l => [("label", Text.decimal l.number.toNat)]
  | duplicateBuffer id => [("id", Text.decimal id.toNat)]
  | unknownBuffer id => [("id", Text.decimal id.toNat)]
  | operandCount mnemonic expected found =>
    [("opcode", Text.quote mnemonic), ("expected", Text.decimal expected),
      ("found", Text.decimal found)]
  | operandKind mnemonic index expected found =>
    [("opcode", Text.quote mnemonic), ("index", Text.decimal index),
      ("expected", Text.quote expected), ("found", Text.quote found)]

end Emission

/-- A defect of the draft of a function. -/
structure EmissionError where
  function : String
  fault : Emission.Fault
  deriving DecidableEq, Repr

namespace EmissionError

def message (e : EmissionError) : String :=
  "function '" ++ e.function ++ "': " ++ e.fault.message

/-- The error in diagnostics. -/
def describe (e : EmissionError) : String :=
  Text.braced e.fault.name (("function", Text.quote e.function) :: e.fault.details)

end EmissionError

end ScriptAssembly
