import ScriptAssembly.Opcode
import ScriptAssembly.Function.Kind
import ScriptAssembly.Literal.Basic
import ScriptAssembly.Source.Basic
/-
Drafts: functions with symbolic branch targets.

A draft is what instruction selection leaves of one function: a list of
instructions with labels placed between them, protected ranges, a tree of
scopes with their variables, and the literal buffers that instructions
refer to by id. Labels and buffer ids are numbers given out by a counter, but
the caller may use any other number as well.
-/
namespace ScriptAssembly

namespace Draft

/-- A symbolic place between instructions. -/
structure Label where
  number : UInt32
  deriving DecidableEq, Repr

/-- The letter L and the number. -/
def Label.text (l : Label) : String := "L" ++ Text.decimal l.number.toNat

/-- An operand whose label or literal buffer is not resolved yet. -/
inductive Operand
  | register (number : UInt16)
  | immediate (value : Int64)
  | double (value : Double)
  | string (value : String)
  | function (name : String)
  /-- One of the draft's own literal buffers. -/
  | buffer (id : UInt32)
  | label (target : Label)
  deriving DecidableEq, Repr

/-- The kind of operand slot that the operand fills. -/
def Operand.kind : Operand → OperandKind
  | register _ => .register
  | immediate _ => .immediate
  | double _ => .double
  | string _ => .string
  | function _ => .function
  | buffer _ => .literalArray
  | label _ => .label

/-- A selected instruction, and the range of the source it was selected for. -/
structure Instruction where
  opcode : Opcode
  operands : List Operand
  span : Option Span
  deriving DecidableEq, Repr

/-- An item of the instruction list. -/
inductive Node
  | label (placed : Label)
  | instruction (instruction : Instruction)
  deriving DecidableEq, Repr

def Node.instruction? : Node → Option Instruction
  | label _ => none
  | instruction i => some i

/-- A protected range, its end excluded, and its handler. -/
structure CatchTable where
  tryBegin : Label
  tryEnd : Label
  handler : Label
  deriving DecidableEq, Repr

/-- A variable that lives in a register. -/
structure Variable where
  name : String
  register : UInt16
  deriving DecidableEq, Repr

/-- A lexical scope between two labels, with its own variables and the scopes inside it. -/
structure Scope where
  start : Label
  stop : Label
  declared : List Variable
  children : List Scope
  deriving Repr

/-- The literals of an array or object literal. -/
structure LiteralBuffer where
  id : UInt32
  literals : List Literal
  deriving DecidableEq, Repr

/-- A counter of a draft ran out of numbers. -/
inductive Breach
  | numbersExhausted
  deriving DecidableEq, Repr

def Breach.message : Breach → String
  | numbersExhausted => "attempt to add with overflow"

/-- The number after `n`, unless `n` is the last of 32 bits. -/
def successor (n : UInt32) : Except Breach UInt32 :=
  if n.toNat + 1 < UInt32.size then .ok (n + 1) else .error .numbersExhausted

end Draft

/-- Everything that instruction selection leaves of one function. -/
structure Draft where
  name : String
  kind : FunctionKind
  parameterCount : UInt32
  source : SourceFile
  nodes : Array Draft.Node := #[]
  catchTables : Array Draft.CatchTable := #[]
  scope : Option Draft.Scope := none
  buffers : Array Draft.LiteralBuffer := #[]
  /-- The number of the next label to be given out. -/
  nextLabel : UInt32 := 0
  /-- The id of the next buffer to be given out; every stored id is below it. -/
  nextBuffer : UInt32 := 0

namespace Draft

/-- The instructions of a draft, in order. -/
def instructions (d : Draft) : List Instruction := d.nodes.toList.filterMap Node.instruction?

/-- Gives out a label, which is not placed yet. -/
def newLabel (d : Draft) : Except Breach (Label × Draft) := do
  let next ← successor d.nextLabel
  return (⟨d.nextLabel⟩, { d with nextLabel := next })

/-- Places a label in front of whatever instruction comes next. -/
def place (d : Draft) (l : Label) : Draft :=
  { d with nodes := d.nodes.push (.label l) }

/-- Adds an instruction at the end. -/
def addInstruction (d : Draft) (i : Instruction) : Draft :=
  { d with nodes := d.nodes.push (.instruction i) }

def addCatchTable (d : Draft) (t : CatchTable) : Draft :=
  { d with catchTables := d.catchTables.push t }

/-- Stores a literal buffer under the next id, and gives the id. -/
def addBuffer (d : Draft) (literals : List Literal) : Except Breach (UInt32 × Draft) := do
  let next ← successor d.nextBuffer
  return (d.nextBuffer,
    { d with nextBuffer := next, buffers := d.buffers.push ⟨d.nextBuffer, literals⟩ })

/-- Stores a literal buffer under an id of the caller's choice; ids given out later are above it. -/
def pushBuffer (d : Draft) (b : LiteralBuffer) : Except Breach Draft := do
  let next ← successor b.id
  return { d with nextBuffer := max d.nextBuffer next, buffers := d.buffers.push b }

def setScope (d : Draft) (s : Scope) : Draft := { d with scope := some s }

end Draft

end ScriptAssembly
