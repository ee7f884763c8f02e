import ScriptAssembly.Opcode
import ScriptAssembly.Function.Kind
import ScriptAssembly.Double.Basic
import ScriptAssembly.Source.Basic
/-
Finished functions.

In a finished function every branch target is an instruction offset, the
number of instructions in front of it, and every literal array is named by
its key in the program. Positions, locals and the source are debug
information, and absent without it.
-/
namespace ScriptAssembly

namespace Function

/-- An operand of a finished instruction. -/
inductive Operand
  | register (number : UInt16)
  | immediate (value : Int64)
  | double (value : Double)
  | string (value : String)
  | function (name : String)
  /-- A literal array, by its key in the program. -/
  | literalArray (key : String)
  /-- A branch target, as an instruction offset. -/
  | offset (value : Nat)
  deriving DecidableEq, Repr

/-- The kind of operand slot that the operand fills. -/
def Operand.kind : Operand → OperandKind
  | register _ => .register
  | immediate _ => .immediate
  | double _ => .double
  | string _ => .string
  | function _ => .function
  | literalArray _ => .literalArray
  | offset _ => .label

/-- The string that belongs in the string table. -/
def Operand.string? : Operand → Option String
  | string s => some s
  | _ => none

/-- A finished instruction; its position is debug information. -/
structure Instruction where
  opcode : Opcode
  operands : List Operand
  position : Option Position
  deriving DecidableEq, Repr

/-- A protected range of instructions, its end excluded, and the handler, as offsets. -/
structure CatchBlock where
  tryBegin : Nat
  tryEnd : Nat
  handler : Nat
  deriving DecidableEq, Repr

/-- A variable in a register: it lives from offset `start` for `length` instructions. -/
structure LocalVariable where
  name : String
  signature : String
  register : UInt16
  start : Nat
  length : Nat
  deriving DecidableEq, Repr

/-- The file a function comes from; only a module's own body carries the text. -/
structure SourceInfo where
  file : String
  checksum : UInt64
  code : Option String
  deriving DecidableEq, Repr

end Function

/-- A finished function. -/
structure Function where
  name : String
  kind : FunctionKind
  parameterCount : UInt32
  instructions : List Function.Instruction
  catchBlocks : List Function.CatchBlock
  locals : List Function.LocalVariable
  source : Option Function.SourceInfo
  deriving DecidableEq, Repr

end ScriptAssembly
