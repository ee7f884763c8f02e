import ScriptAssembly.Program.Basic
import ScriptAssembly.Emission.Basic
/-
Putting a program together.

A builder starts with the main record alone. Emitted functions come in any
order, each with its literal arrays and strings; the module record comes at
most once, and with it the flag for CommonJS, which is read then and never
again. A refused call has no new builder, so nothing of it can stay behind.
-/
namespace ScriptAssembly

/-- What a build is asked for. -/
structure Options where
  /-- Whether to emit debug information: positions, local variables and the source file. -/
  debug : Bool := false
  /-- Whether the module is wrapped for the CommonJS module system. -/
  commonjs : Bool := false
  /-- Name of the program's main record. -/
  recordName : String := "_GLOBAL"
  /-- Whether to print the listing of the finished program. -/
  dumpListing : Bool := false
  /-- Whether to print the listing with debug information. -/
  dumpDebugInfo : Bool := false
  deriving DecidableEq, Repr, Inhabited

/-- A program in the making. -/
structure Builder where
  /-- Name of the main record. -/
  recordName : String
  program : Program
  /-- The flag for CommonJS, once the module record is there. -/
  commonjs : Option Bool

namespace Builder

/-- A call that the builder does not allow. -/
inductive Breach
  | functionTwice (name : String)
  | moduleRecordTwice (recordName : String)
  deriving DecidableEq, Repr

def Breach.message : Breach → String
  | functionTwice name => "function '" ++ name ++ "' was added to the program twice"
  | moduleRecordTwice name => "module record of '" ++ name ++ "' was registered twice"

/-- The main record's field with the flag for CommonJS. -/
def commonjsField : String := "isCommonjs"

/-- The main record's field with the key of the module record. -/
def moduleRecordField : String := "moduleRecordIdx"

/-- The record that marks a CommonJS module. -/
def commonjsRecord : Program.Record :=
  (Program.Record.named "_CommonJsRecord").addField "isCommonJs" (.u8 1)

/-- A program that holds only an empty main record. -/
def start (o : Options) : Builder where
  recordName := o.recordName
  program := { Program.empty with
    records := Program.empty.records.insert o.recordName (.named o.recordName) }
  commonjs := none

/-- The literal arrays of an emitted function under their keys. -/
def keyedArrays (e : Emission) : List (String × List Literal) :=
  e.buffers.map fun b => (bufferKey e.function.name b.id, b.literals)

/-- Adds an emitted function with its literal arrays and strings. -/
def addFunction (b : Builder) (e : Emission) : Except Breach Builder :=
  let name := e.function.name
  if name ∈ b.program.functions then .error (.functionTwice name)
  else .ok { b with
    program := { b.program with
      functions := b.program.functions.insert name e.function
      literalArrays := b.program.literalArrays.insertMany (keyedArrays e)
      strings := b.program.strings.insertMany e.strings.toList } }

/-- The main record. -/
def mainRecord (b : Builder) : Program.Record :=
  b.program.records[b.recordName]?.getD (.named b.recordName)

/-- Adds the module record, and tells of it in the main record. -/
def addModuleRecord (b : Builder) (commonjs : Bool) (literals : List Literal) :
    Except Breach Builder :=
  if b.commonjs.isSome then .error (.moduleRecordTwice b.recordName)
  else
    let key := moduleRecordKey b.recordName
    let main := (b.mainRecord.addField commonjsField (.u8 (if commonjs then 1 else 0))).addField
      moduleRecordField (.literalArray key)
    .ok { b with
      program := { b.program with
        literalArrays := b.program.literalArrays.insert key literals
        records := b.program.records.insert b.recordName main }
      commonjs := some commonjs }

/-- The finished program; a CommonJS module has one more record. -/
def finish (b : Builder) : Program :=
  if b.commonjs = some true then
    { b.program with records := b.program.records.insert commonjsRecord.name commonjsRecord }
  else b.program

end Builder

end ScriptAssembly
