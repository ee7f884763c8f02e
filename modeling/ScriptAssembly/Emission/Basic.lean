import ScriptAssembly.Emission.Error
import ScriptAssembly.Function.Basic
import ScriptAssembly.Literal.Basic
import ScriptAssembly.Source.Checksum
import ScriptAssembly.Source.WordTable
import Std.Data.ExtTreeMap
import Std.Data.ExtTreeSet
/-
Emission: from a draft to a finished function.

Emission resolves labels to offsets and buffers to keys, checks every
instruction against its opcode's layout, and collects the strings that the
program's table must hold. With debug information it also adds the position
of each instruction, the variables of the scope tree and the source file.

A label stands for the number of instructions in front of its last
placement: the offset of the instruction that follows it, or the number of
all instructions where none follows.

The first fault decides, in this order: a repeated buffer id; then
instruction by instruction the number of operands, the leftmost operand of a
wrong kind, the leftmost operand that does not resolve; then the catch
tables; then, for debug information only, the scopes from the outside in.
-/
namespace ScriptAssembly

/-- What emission makes of a draft: the function, its literal buffers, and its strings. -/
structure Emission where
  function : Function
  buffers : List Draft.LiteralBuffer
  strings : Std.ExtTreeSet String
  deriving DecidableEq

namespace Emission

/-! ## Offsets of labels -/

/-- The offset of each placed label, by label number. -/
structure LabelTable where
  offsets : Std.ExtTreeMap UInt32 Nat

namespace LabelTable

/-- The table after the given nodes, `offset` instructions being in front of them. -/
def extend (t : LabelTable) (offset : Nat) : List Draft.Node → LabelTable
  | [] => t
  | .label l :: nodes => extend ⟨t.offsets.insert l.number offset⟩ offset nodes
  | .instruction _ :: nodes => extend t (offset + 1) nodes

def ofNodes (nodes : List Draft.Node) : LabelTable := extend ⟨∅⟩ 0 nodes

/-- Nodes one after another: the later ones begin behind the instructions of the earlier ones. -/
theorem extend_append (t : LabelTable) (n : Nat) (as bs : List Draft.Node) :
    t.extend n (as ++ bs) =
      (t.extend n as).extend (n + (as.filterMap Draft.Node.instruction?).length) bs := by
  induction as generalizing t n with
  | nil => rfl
  | cons a as ih =>
    cases a with
    | label l => simp [extend, List.filterMap_cons, Draft.Node.instruction?, ih]
    | instruction i =>
      simp only [List.cons_append, extend, ih, List.filterMap_cons, Draft.Node.instruction?,
        List.length_cons]
      congr 1
      omega

/-- The offset of a label. -/
def offset (t : LabelTable) (l : Draft.Label) : Except Fault Nat :=
  match t.offsets[l.number]? with
  | some n => .ok n
  | none => .error (.unboundLabel l)

end LabelTable

/-! ## Emission -/

/-- What an operand is resolved against. -/
structure Context where
  /-- Name of the function, which its literal arrays carry in their keys. -/
  function : String
  labels : LabelTable
  /-- The ids of the function's literal buffers. -/
  buffers : Std.ExtTreeSet UInt32
  /-- The line table of the source text, for debug information only. -/
  lines : Option WordTable

/-- The ids of literal buffers, which are all different. -/
def bufferIds (buffers : List Draft.LiteralBuffer) : Except Fault (Std.ExtTreeSet UInt32) :=
  buffers.foldlM
    (fun ids b => if b.id ∈ ids then .error (.duplicateBuffer b.id) else .ok (ids.insert b.id)) ∅

/-- Checks the number of an instruction's operands, and then their kinds. -/
def checkOperands (i : Draft.Instruction) : Except Fault Unit :=
  let layout := i.opcode.layout
  let name := i.opcode.mnemonic
  if i.operands.length ≠ layout.length then
    .error (.operandCount name layout.length i.operands.length)
  else
    match (layout.zip i.operands).zipIdx.find? (fun s => s.1.2.kind != s.1.1) with
    | some ((slot, operand), index) =>
      .error (.operandKind name index slot.name operand.kind.name)
    | none => .ok ()

/-- Resolves an operand. -/
def Context.operand (c : Context) : Draft.Operand → Except Fault Function.Operand
  | .register r => .ok (.register r)
  | .immediate v => .ok (.immediate v)
  | .double x => .ok (.double x)
  | .string s => .ok (.string s)
  | .function f => .ok (.function f)
  | .buffer id =>
    if id ∈ c.buffers then .ok (.literalArray (bufferKey c.function id))
    else .error (.unknownBuffer id)
  | .label l => do return .offset (← c.labels.offset l)

/-- The position of an instruction: that of the first byte of its range. -/
def Context.position (c : Context) (i : Draft.Instruction) : Option Position := do
  return (← c.lines).position (← i.span).start

/-- Checks an instruction and resolves its operands. -/
def Context.instruction (c : Context) (i : Draft.Instruction) :
    Except Fault Function.Instruction := do
  checkOperands i
  let operands ← i.operands.mapM c.operand
  return ⟨i.opcode, operands, c.position i⟩

/-- Resolves the labels of a catch table. -/
def Context.catchBlock (c : Context) (t : Draft.CatchTable) : Except Fault Function.CatchBlock := do
  return ⟨← c.labels.offset t.tryBegin, ← c.labels.offset t.tryEnd, ← c.labels.offset t.handler⟩

/-- The signature of every variable: values have no types. -/
def anySignature : String := "any"

/-- A variable of the scope between two offsets; it has no length if the scope ends before it
starts. -/
def localVariable (start stop : Nat) (v : Draft.Variable) : Function.LocalVariable :=
  ⟨v.name, anySignature, v.register, start, stop - start⟩

mutual

/-- The variables of a scope, and then those of the scopes inside it. -/
def Context.locals (c : Context) : Draft.Scope → Except Fault (List Function.LocalVariable)
  | ⟨start, stop, declared, children⟩ => do
    let start ← c.labels.offset start
    let stop ← c.labels.offset stop
    let inner ← c.localsOfAll children
    return declared.map (localVariable start stop) ++ inner

/-- The variables of scopes that lie side by side. -/
def Context.localsOfAll (c : Context) :
    List Draft.Scope → Except Fault (List Function.LocalVariable)
  | [] => .ok []
  | s :: ss => do
    let first ← c.locals s
    let others ← c.localsOfAll ss
    return first ++ others

end

/-- The source file of a draft; the text is kept with the body of a module only. -/
def sourceInfo (d : Draft) : Function.SourceInfo where
  file := d.source.path
  checksum := Checksum.ofText d.source.text
  code := if d.kind.has .moduleEntry then some d.source.text else none

/-- The strings of instructions and of literal buffers. -/
def collectStrings (instructions : List Function.Instruction) (buffers : List Draft.LiteralBuffer) :
    Std.ExtTreeSet String :=
  .ofList (instructions.flatMap (fun i => i.operands.filterMap Function.Operand.string?)
    ++ buffers.flatMap (fun b => Literal.strings b.literals))

/-- Emits a draft, or finds its first fault. -/
def ofDraft (debug : Bool) (d : Draft) : Except Fault Emission := do
  let ids ← bufferIds d.buffers.toList
  let c : Context :=
    ⟨d.name, .ofNodes d.nodes.toList, ids, if debug then some d.source.lines else none⟩
  let instructions ← d.instructions.mapM c.instruction
  let catchBlocks ← d.catchTables.toList.mapM c.catchBlock
  let locals ← if debug then c.localsOfAll d.scope.toList else .ok []
  return {
    function := {
      name := d.name
      kind := d.kind
      parameterCount := d.parameterCount
      instructions, catchBlocks, locals
      source := if debug then some (sourceInfo d) else none }
    buffers := d.buffers.toList
    strings := collectStrings instructions d.buffers.toList }

end Emission

/-- Emits a draft; an error carries the function's name. -/
def Draft.emit (debug : Bool) (d : Draft) : Except EmissionError Emission :=
  (Emission.ofDraft debug d).mapError (⟨d.name, ·⟩)

end ScriptAssembly
