/-
Instruction opcodes.

The machine works on an accumulator: most instructions read or write it and
name at most two virtual registers. An opcode has a code of one byte, a
mnemonic, and a layout, the kinds of its operands in order.
-/
namespace ScriptAssembly

/-- What an operand slot holds. -/
inductive OperandKind
  | register
  | immediate
  | double
  | string
  | function
  | literalArray
  | label
  deriving DecidableEq, Repr

/-- The kind in messages. -/
def OperandKind.name : OperandKind → String
  | .register => "register"
  | .immediate => "immediate"
  | .double => "double"
  | .string => "string"
  | .function => "function"
  | .literalArray => "literal array"
  | .label => "label"

/-- An opcode. The codes count from zero in this order. -/
inductive Opcode
  | nop
  -- loads of the accumulator
  | ldUndefined
  | ldNull
  | ldTrue
  | ldFalse
  | ldai
  | fldai
  | ldaStr
  | lda
  -- a store to a register, and a copy to the first register from the second
  | sta
  | mov
  -- arithmetic and comparison of a register with the accumulator
  | add2
  | sub2
  | mul2
  | div2
  | mod2
  | eq
  | strictEq
  | less
  | greater
  -- functions of the accumulator alone
  | not
  | typeOf
  -- jumps: always, if the accumulator is falsy, if it is truthy
  | jmp
  | jeqz
  | jnez
  -- new objects and arrays, empty or filled from a literal array
  | createEmptyObject
  | createEmptyArray
  | createArrayWithBuffer
  | createObjectWithBuffer
  -- properties by name of the object in a register
  | ldObjByName
  | stObjByName
  -- global and module variables by name, and the namespace object of a module request
  | tryLdGlobalByName
  | tryStGlobalByName
  | ldLocalModuleVar
  | stModuleVar
  | ldExternalModuleVar
  | getModuleNamespace
  -- a closure over a named function with its parameter count, and calls of a closure in a register
  | defineFunc
  | callArg0
  | callArg1
  -- the end of a function
  | returnValue
  | returnUndefined
  | throwValue
  deriving DecidableEq, Repr

namespace Opcode

/-- Every opcode, in the order of the codes. -/
def all : List Opcode :=
  [nop, ldUndefined, ldNull, ldTrue, ldFalse, ldai, fldai, ldaStr, lda, sta, mov, add2, sub2, mul2,
    div2, mod2, eq, strictEq, less, greater, not, typeOf, jmp, jeqz, jnez, createEmptyObject,
    createEmptyArray, createArrayWithBuffer, createObjectWithBuffer, ldObjByName, stObjByName,
    tryLdGlobalByName, tryStGlobalByName, ldLocalModuleVar, stModuleVar, ldExternalModuleVar,
    getModuleNamespace, defineFunc, callArg0, callArg1, returnValue, returnUndefined, throwValue]

/-- The byte that stands for the opcode. -/
def code (op : Opcode) : UInt8 := op.ctorIdx.toUInt8

/-- The opcode's name in lists of opcodes. -/
def name : Opcode → String
  | nop => "Nop"
  | ldUndefined => "LdUndefined"
  | ldNull => "LdNull"
  | ldTrue => "LdTrue"
  | ldFalse => "LdFalse"
  | ldai => "Ldai"
  | fldai => "Fldai"
  | ldaStr => "LdaStr"
  | lda => "Lda"
  | sta => "Sta"
  | mov => "Mov"
  | add2 => "Add2"
  | sub2 => "Sub2"
  | mul2 => "Mul2"
  | div2 => "Div2"
  | mod2 => "Mod2"
  | eq => "Eq"
  | strictEq => "StrictEq"
  | less => "Less"
  | greater => "Greater"
  | not => "Not"
  | typeOf => "TypeOf"
  | jmp => "Jmp"
  | jeqz => "Jeqz"
  | jnez => "Jnez"
  | createEmptyObject => "CreateEmptyObject"
  | createEmptyArray => "CreateEmptyArray"
  | createArrayWithBuffer => "CreateArrayWithBuffer"
  | createObjectWithBuffer => "CreateObjectWithBuffer"
  | ldObjByName => "LdObjByName"
  | stObjByName => "StObjByName"
  | tryLdGlobalByName => "TryLdGlobalByName"
  | tryStGlobalByName => "TryStGlobalByName"
  | ldLocalModuleVar => "LdLocalModuleVar"
  | stModuleVar => "StModuleVar"
  | ldExternalModuleVar => "LdExternalModuleVar"
  | getModuleNamespace => "GetModuleNamespace"
  | defineFunc => "DefineFunc"
  | callArg0 => "CallArg0"
  | callArg1 => "CallArg1"
  | returnValue => "Return"
  | returnUndefined => "ReturnUndefined"
  | throwValue => "Throw"

/-- The opcode of a name. -/
def ofName? (s : String) : Option Opcode := all.find? (·.name == s)

/-- The opcode's name in assembly. -/
def mnemonic : Opcode → String
  | nop => "nop"
  | ldUndefined => "ldundefined"
  | ldNull => "ldnull"
  | ldTrue => "ldtrue"
  | ldFalse => "ldfalse"
  | ldai => "ldai"
  | fldai => "fldai"
  | ldaStr => "lda.str"
  | lda => "lda"
  | sta => "sta"
  | mov => "mov"
  | add2 => "add2"
  | sub2 => "sub2"
  | mul2 => "mul2"
  | div2 => "div2"
  | mod2 => "mod2"
  | eq => "eq"
  | strictEq => "stricteq"
  | less => "less"
  | greater => "greater"
  | not => "not"
  | typeOf => "typeof"
  | jmp => "jmp"
  | jeqz => "jeqz"
  | jnez => "jnez"
  | createEmptyObject => "createemptyobject"
  | createEmptyArray => "createemptyarray"
  | createArrayWithBuffer => "createarraywithbuffer"
  | createObjectWithBuffer => "createobjectwithbuffer"
  | ldObjByName => "ldobjbyname"
  | stObjByName => "stobjbyname"
  | tryLdGlobalByName => "tryldglobalbyname"
  | tryStGlobalByName => "trystglobalbyname"
  | ldLocalModuleVar => "ldlocalmodulevar"
  | stModuleVar => "stmodulevar"
  | ldExternalModuleVar => "ldexternalmodulevar"
  | getModuleNamespace => "getmodulenamespace"
  | defineFunc => "definefunc"
  | callArg0 => "callarg0"
  | callArg1 => "callarg1"
  | returnValue => "return"
  | returnUndefined => "returnundefined"
  | throwValue => "throw"

/-- The kinds of the opcode's operands, in order. -/
def layout : Opcode → List OperandKind
  | nop | ldUndefined | ldNull | ldTrue | ldFalse | not | typeOf | createEmptyObject
  | createEmptyArray | returnValue | returnUndefined | throwValue => []
  | ldai | getModuleNamespace => [.immediate]
  | fldai => [.double]
  | ldaStr | tryLdGlobalByName | tryStGlobalByName | ldLocalModuleVar | stModuleVar
  | ldExternalModuleVar => [.string]
  | lda | sta | add2 | sub2 | mul2 | div2 | mod2 | eq | strictEq | less | greater
  | callArg0 => [.register]
  | mov | callArg1 => [.register, .register]
  | jmp | jeqz | jnez => [.label]
  | createArrayWithBuffer | createObjectWithBuffer => [.literalArray]
  | ldObjByName | stObjByName => [.register, .string]
  | defineFunc => [.function, .immediate]

end Opcode

end ScriptAssembly
