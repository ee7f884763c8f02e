import ScriptAssembly.Emission.Basic
/-
Emission in place.

`ofDraft` computes the parts of an emission one after another and has the
strings last, as those of all that was emitted. An emitter in memory has no
such order: it goes through the draft once, phase by phase, and fills its
tables on the way. A string is put into the table where it is met, those of
literal buffers before any instruction is looked at; variables are listed
while the scopes are walked through. What was put in before a fault stays in
the emitter, which is then of no use any more.
-/
namespace ScriptAssembly.Emission

/-- An emitter at work on a draft: its tables, and the emission as far as it goes. -/
structure Emitter where
  labels : LabelTable
  /-- The ids of the buffers stored so far. -/
  ids : Std.ExtTreeSet UInt32
  emission : Emission

/-- An emitter that has not begun. -/
def Emitter.start (d : Draft) : Emitter where
  labels := ⟨∅⟩
  ids := ∅
  emission := ⟨⟨d.name, d.kind, d.parameterCount, [], [], [], none⟩, [], ∅⟩

/-- A computation of an emitter, which may find a fault at any time. -/
abbrev InPlace (α : Type) := EStateM Fault Emitter α

namespace InPlace

/-! ## Single changes -/

def placeLabel (l : Draft.Label) (offset : Nat) : InPlace Unit :=
  modify fun s => { s with labels := ⟨s.labels.offsets.insert l.number offset⟩ }

def addBufferId (id : UInt32) : InPlace Unit := modify fun s => { s with ids := s.ids.insert id }

def modifyEmission (f : Emission → Emission) : InPlace Unit := modify fun s => { s with emission := f s.emission }

def addString (string : String) : InPlace Unit :=
  modifyEmission fun e => { e with strings := e.strings.insert string }

def pushBuffer (b : Draft.LiteralBuffer) : InPlace Unit :=
  modifyEmission fun e => { e with buffers := e.buffers ++ [b] }

def modifyFunction (f : Function → Function) : InPlace Unit :=
  modifyEmission fun e => { e with function := f e.function }

def pushInstruction (i : Function.Instruction) : InPlace Unit :=
  modifyFunction fun f => { f with instructions := f.instructions ++ [i] }

def pushCatchBlock (b : Function.CatchBlock) : InPlace Unit :=
  modifyFunction fun f => { f with catchBlocks := f.catchBlocks ++ [b] }

def pushLocal (v : Function.LocalVariable) : InPlace Unit :=
  modifyFunction fun f => { f with locals := f.locals ++ [v] }

def setSource (s : Function.SourceInfo) : InPlace Unit := modifyFunction fun f => { f with source := some s }

/-! ## Labels -/

/-- Goes through the nodes and counts their instructions; each label is placed at the count so far. -/
def placeLabels (offset : Nat) : List Draft.Node → InPlace Unit
  | [] => pure ()
  | .label l :: nodes => do
    placeLabel l offset
    placeLabels offset nodes
  | .instruction _ :: nodes => placeLabels (offset + 1) nodes

def offset (l : Draft.Label) : InPlace Nat := do
  let s ← get
  ofExcept (s.labels.offset l)

/-! ## Buffers -/

/-- Stores a literal buffer under an id that is not taken, and its strings in the string table. -/
def storeBuffer (b : Draft.LiteralBuffer) : InPlace Unit := do
  let s ← get
  if b.id ∈ s.ids then throw (.duplicateBuffer b.id)
  else
    addBufferId b.id
    (Literal.strings b.literals).forM addString
    pushBuffer b

/-! ## Instructions -/

/-- Resolves an operand; a string goes into the string table. -/
def operand : Draft.Operand → InPlace Function.Operand
  | .register r => return .register r
  | .immediate v => return .immediate v
  | .double x => return .double x
  | .string s => do
    addString s
    return .string s
  | .function f => return .function f
  | .buffer id => do
    let s ← get
    if id ∈ s.ids then return .literalArray (bufferKey s.emission.function.name id)
    else throw (.unknownBuffer id)
  | .label l => do return .offset (← offset l)

def instruction (lines : Option WordTable) (i : Draft.Instruction) : InPlace Unit := do
  ofExcept (checkOperands i)
  let operands ← i.operands.mapM operand
  let position := do return (← lines).position (← i.span).start
  pushInstruction ⟨i.opcode, operands, position⟩

def catchTable (t : Draft.CatchTable) : InPlace Unit := do
  pushCatchBlock ⟨← offset t.tryBegin, ← offset t.tryEnd, ← offset t.handler⟩

/-! ## Scopes -/

mutual

/-- Lists the variables of a scope, and then those of the scopes inside it. -/
def scope : Draft.Scope → InPlace Unit
  | ⟨start, stop, declared, children⟩ => do
    let start ← offset start
    let stop ← offset stop
    declared.forM fun v => pushLocal (localVariable start stop v)
    scopes children

def scopes : List Draft.Scope → InPlace Unit
  | [] => pure ()
  | s :: ss => do
    scope s
    scopes ss

end

/-! ## Drafts -/

/-- Emits a draft, phase by phase. -/
def emit (debug : Bool) (d : Draft) : InPlace Unit := do
  placeLabels 0 d.nodes.toList
  d.buffers.toList.forM storeBuffer
  d.instructions.forM (instruction (if debug then some d.source.lines else none))
  d.catchTables.toList.forM catchTable
  if debug then
    scopes d.scope.toList
    setSource (sourceInfo d)

end InPlace

end ScriptAssembly.Emission
