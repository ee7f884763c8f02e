import ScriptAssembly.Function.Basic
import ScriptAssembly.Text.Basic
/-
The opcodes of a function, and checking them against a list.
-/
namespace ScriptAssembly

/-- A function's opcodes are not the expected ones. -/
structure OpcodeMismatch where
  function : String
  expected : List Opcode
  actual : List Opcode
  deriving DecidableEq, Repr

/-- Shows both lists, by mnemonic and by name. -/
def OpcodeMismatch.message (e : OpcodeMismatch) : String :=
  let mnemonics (ops : List Opcode) := Text.bracketed (ops.map fun op => Text.quote op.mnemonic)
  let names (ops : List Opcode) := Text.bracketed (ops.map Opcode.name)
  "assertion \x60left == right\x60 failed: Instruction mismatch in '" ++ e.function ++ "'.\n"
    ++ "Expected: " ++ mnemonics e.expected ++ "\nActual:   " ++ mnemonics e.actual
    ++ "\n  left: " ++ names e.actual ++ "\n right: " ++ names e.expected

namespace Function

/-- The opcodes of a function, in order. -/
def opcodes (f : Function) : List Opcode := f.instructions.map (·.opcode)

/-- An error unless the function's opcodes are the expected ones. -/
def checkOpcodes (f : Function) (expected : List Opcode) : Except OpcodeMismatch Unit :=
  if f.opcodes = expected then .ok () else .error ⟨f.name, expected, f.opcodes⟩

end Function

end ScriptAssembly
