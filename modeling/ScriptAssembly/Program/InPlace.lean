import ScriptAssembly.Program.Builder
/-
Calls on a builder that is changed where it stands.

`addFunction` and `addModuleRecord` have a new builder last, so a call that
they refuse cannot leave anything behind. A builder in memory has no such
guarantee: here a call looks at one table, makes one change after another,
every literal array and every string by itself, and says only behind all of
them whether it was allowed. Whatever was changed until then stays changed.
-/
namespace ScriptAssembly.Builder

/-- A computation on a builder in memory, which may be aborted at any time. -/
abbrev InPlace (α : Type) := EStateM Breach Builder α

namespace InPlace

/-! ## Single changes -/

def modifyProgram (f : Program → Program) : InPlace Unit := modify fun b => { b with program := f b.program }

def insertFunction (f : Function) : InPlace Unit :=
  modifyProgram fun p => { p with functions := p.functions.insert f.name f }

def insertArray (key : String) (literals : List Literal) : InPlace Unit :=
  modifyProgram fun p => { p with literalArrays := p.literalArrays.insert key literals }

def insertString (string : String) : InPlace Unit :=
  modifyProgram fun p => { p with strings := p.strings.insert string }

def setCommonjs (commonjs : Bool) : InPlace Unit := modify fun b => { b with commonjs := some commonjs }

/-- Puts an empty record under a name that has none. -/
def ensureRecord (name : String) : InPlace Unit :=
  modifyProgram fun p => { p with records := p.records.insertIfNew name (.named name) }

def addField (record name : String) (value : Program.FieldValue) : InPlace Unit :=
  modifyProgram fun p => { p with records := p.records.modify record (·.addField name value) }

/-! ## Calls -/

/-- Stores an emitted function with its literal arrays and strings, or finds its name taken. -/
def storeFunction (e : Emission) : InPlace Bool := do
  let b ← get
  if e.function.name ∈ b.program.functions then return true
  else
    insertFunction e.function
    (keyedArrays e).forM fun a => insertArray a.1 a.2
    e.strings.toList.forM insertString
    return false

def addFunction (e : Emission) : InPlace Unit := do
  if ← storeFunction e then throw (.functionTwice e.function.name)

/-- Stores the module record, and tells of it in the main record, or finds that there is one. -/
def storeModuleRecord (commonjs : Bool) (literals : List Literal) : InPlace Bool := do
  let b ← get
  if b.commonjs.isSome then return true
  else
    let key := moduleRecordKey b.recordName
    setCommonjs commonjs
    insertArray key literals
    ensureRecord b.recordName
    addField b.recordName commonjsField (.u8 (if commonjs then 1 else 0))
    addField b.recordName moduleRecordField (.literalArray key)
    return false

def addModuleRecord (commonjs : Bool) (literals : List Literal) : InPlace Unit := do
  let b ← get
  if ← storeModuleRecord commonjs literals then throw (.moduleRecordTwice b.recordName)

end InPlace

end ScriptAssembly.Builder
