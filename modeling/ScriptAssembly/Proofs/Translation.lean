import ScriptAssembly.Proofs.Faults
import ScriptAssembly.Proofs.Placement
import ScriptAssembly.Proofs.WordTable
/-
Emission as a translation.

Nothing is dropped, added or moved between a draft and the function made of
it: what an operand, an instruction and a catch table become is told by
relations that know neither label tables nor line tables (`MakesOperand`,
`MakesInstruction`, `MakesCatchBlock`), and the lists of the two sides are
related one to one (`Translates`). A label is told by its placement and a
position by counting bytes; that the tables of emission say the same is shown
where these are treated, and used here once for each operand and once for each
instruction.
-/
namespace ScriptAssembly

namespace Emission

/-- What an operand becomes: a buffer its key in the program, a label the offset it stands for, and any other operand
itself. -/
inductive MakesOperand (d : Draft) (e : Emission) : Draft.Operand → Function.Operand → Prop
  | register (number : UInt16) : MakesOperand d e (.register number) (.register number)
  | immediate (value : Int64) : MakesOperand d e (.immediate value) (.immediate value)
  | double (value : Double) : MakesOperand d e (.double value) (.double value)
  | string (value : String) : MakesOperand d e (.string value) (.string value)
  | function (name : String) : MakesOperand d e (.function name) (.function name)
  | buffer {id : UInt32} (stored : id ∈ e.buffers.map (·.id)) :
    MakesOperand d e (.buffer id) (.literalArray (e.function.name ++ "#" ++ Text.decimal id.toNat))
  | label {target : Draft.Label} {n : Nat} (resolves : d.Resolves target n) :
    MakesOperand d e (.label target) (.offset n)

/-- What an instruction becomes. -/
structure MakesInstruction (debug : Bool) (d : Draft) (e : Emission) (i : Draft.Instruction)
    (j : Function.Instruction) : Prop where
  opcode : j.opcode = i.opcode
  operands : List.Forall₂ (MakesOperand d e) i.operands j.operands
  layout : j.operands.map Function.Operand.kind = j.opcode.layout
  /-- There is a position where there is debug information and a range. -/
  positioned : j.position.isSome = (debug && i.span.isSome)
  /-- In a text of fewer than 2^32 - 1 bytes the position is that of the range's start. -/
  position : d.source.text.utf8ByteSize < 4294967295 →
    j.position = if debug then i.span.map fun s => Position.ofOffset d.source.text s.start else none

/-- What a catch table becomes. -/
structure MakesCatchBlock (d : Draft) (t : Draft.CatchTable) (b : Function.CatchBlock) : Prop where
  tryBegin : d.Resolves t.tryBegin b.tryBegin
  tryEnd : d.Resolves t.tryEnd b.tryEnd
  handler : d.Resolves t.handler b.handler

/-- An emission that has for everything in a draft, in order, what becomes of it. -/
structure Translates (debug : Bool) (d : Draft) (e : Emission) : Prop where
  name : e.function.name = d.name
  kind : e.function.kind = d.kind
  parameterCount : e.function.parameterCount = d.parameterCount
  count : e.function.instructions.length = d.instructions.length
  instructions : List.Forall₂ (MakesInstruction debug d e) d.instructions e.function.instructions
  catchBlocks : List.Forall₂ (MakesCatchBlock d) d.catchTables.toList e.function.catchBlocks
  buffers : e.buffers = d.buffers.toList

/-! ## Operands -/

theorem MakesOperand.kind_eq {d : Draft} {e : Emission} {x : Draft.Operand} {y : Function.Operand}
    (h : MakesOperand d e x y) : y.kind = x.kind := by
  cases h <;> rfl

theorem kinds_eq {d : Draft} {e : Emission} {xs : List Draft.Operand} {ys : List Function.Operand}
    (h : List.Forall₂ (MakesOperand d e) xs ys) : ys.map Function.Operand.kind = xs.map Draft.Operand.kind := by
  induction h with
  | nil => rfl
  | cons hx _ ih => rw [List.map_cons, List.map_cons, hx.kind_eq, ih]

variable {debug : Bool} {d : Draft} {ids : Std.ExtTreeSet UInt32} {e : Emission}

theorem FromDraft.mem_ids (h : FromDraft debug d ids e) {id : UInt32} : id ∈ ids ↔ id ∈ e.buffers.map (·.id) := by
  rw [(bufferIds_ok h.distinct).2, h.buffers, List.mem_map]

theorem FromDraft.makesOperand (h : FromDraft debug d ids e) {x : Draft.Operand} {y : Function.Operand}
    (hy : (contextOf debug d ids).operand x = .ok y) : MakesOperand d e x y := by
  cases x with
  | buffer id =>
    simp only [Context.operand] at hy
    split at hy
    next hid =>
      cases hy
      have hname : (contextOf debug d ids).function = e.function.name := h.name.symm
      rw [hname]
      exact .buffer (h.mem_ids.mp hid)
    · cases hy
  | label target =>
    simp only [Context.operand, bind_eq_ok, pure_eq_ok] at hy
    obtain ⟨n, hn, rfl⟩ := hy
    exact .label (LabelTable.offset_eq_ok_iff.mp hn)
  | register | immediate | double | string | function =>
    cases hy
    constructor

/-! ## Instructions -/

theorem checkOperands_ok {i : Draft.Instruction} (h : checkOperands i = .ok ()) :
    i.operands.map Draft.Operand.kind = i.opcode.layout :=
  layoutFaults_eq_nil.mp ((checkOperands_reports i).ok_iff.mp ⟨(), h⟩)

theorem position_contextOf (debug : Bool) (d : Draft) (ids : Std.ExtTreeSet UInt32) (i : Draft.Instruction) :
    (contextOf debug d ids).position i = if debug then i.span.map fun s => d.source.lines.position s.start else none := by
  cases debug with
  | false => rfl
  | true => cases hspan : i.span <;> simp [Context.position, contextOf, hspan]

theorem positioned_contextOf (debug : Bool) (d : Draft) (ids : Std.ExtTreeSet UInt32) (i : Draft.Instruction) :
    ((contextOf debug d ids).position i).isSome = (debug && i.span.isSome) := by
  rw [position_contextOf]
  cases debug <;> simp

theorem FromDraft.makesInstruction (h : FromDraft debug d ids e) {i : Draft.Instruction} {j : Function.Instruction}
    (hj : (contextOf debug d ids).instruction i = .ok j) : MakesInstruction debug d e i j := by
  have hoperands : List.Forall₂ (MakesOperand d e) i.operands j.operands :=
    (Context.instruction_ok hj).imp fun _ _ => h.makesOperand
  simp only [Context.instruction, bind_eq_ok, pure_eq_ok] at hj
  obtain ⟨u, hcheck, operands, -, rfl⟩ := hj
  refine ⟨rfl, hoperands, (kinds_eq hoperands).trans (checkOperands_ok hcheck), positioned_contextOf debug d ids i,
    fun hsize => ?_⟩
  simp only [position_contextOf, SourceFile.lines, WordTable.position_wrapped hsize]

/-! ## Catch tables -/

theorem makesCatchBlock {t : Draft.CatchTable} {b : Function.CatchBlock}
    (h : (contextOf debug d ids).catchBlock t = .ok b) : MakesCatchBlock d t b := by
  simp only [Context.catchBlock, bind_eq_ok, pure_eq_ok] at h
  obtain ⟨first, hfirst, last, hlast, handler, hhandler, rfl⟩ := h
  exact ⟨LabelTable.offset_eq_ok_iff.mp hfirst, LabelTable.offset_eq_ok_iff.mp hlast,
    LabelTable.offset_eq_ok_iff.mp hhandler⟩

theorem FromDraft.makesInstructions (h : FromDraft debug d ids e) :
    List.Forall₂ (MakesInstruction debug d e) d.instructions e.function.instructions :=
  h.instructions.imp fun _ _ => h.makesInstruction

theorem FromDraft.makesCatchBlocks (h : FromDraft debug d ids e) :
    List.Forall₂ (MakesCatchBlock d) d.catchTables.toList e.function.catchBlocks :=
  h.catchBlocks.imp fun _ _ => makesCatchBlock

/-- **Emission is a translation**, one to one and in order. -/
theorem translates_of_emit (h : d.emit debug = .ok e) : Translates debug d e := by
  obtain ⟨ids, hd⟩ := fromDraft_of_emit h
  exact ⟨hd.name, hd.kind, hd.parameterCount, hd.length_instructions, hd.makesInstructions, hd.makesCatchBlocks,
    hd.buffers⟩

/-- A function with operands of every kind, on two lines of source; one range is past their end, and some are missing. -/
def assortedDraft : Draft where
  name := "f"
  kind := .plain
  parameterCount := 1
  source := ⟨"m.js", "a;\nb;"⟩
  nodes := #[.label ⟨3⟩, .instruction ⟨.createArrayWithBuffer, [.buffer 7], some ⟨0, 1⟩⟩,
    .instruction ⟨.defineFunc, [.function "g", .immediate 2], some ⟨4, 5⟩⟩,
    .instruction ⟨.fldai, [.double ⟨0x8000000000000000⟩], some ⟨9, 12⟩⟩, .label ⟨1⟩,
    .instruction ⟨.stObjByName, [.register 4, .string "p"], none⟩, .instruction ⟨.jeqz, [.label ⟨5⟩], none⟩,
    .instruction ⟨.jmp, [.label ⟨3⟩], none⟩, .label ⟨5⟩]
  catchTables := #[⟨⟨3⟩, ⟨1⟩, ⟨5⟩⟩]
  buffers := #[⟨7, [.integer 0]⟩]

theorem translates_of_emit_assorted : ∃ e, assortedDraft.emit true = .ok e ∧
    (e.function.instructions, e.function.catchBlocks) =
      ([⟨.createArrayWithBuffer, [.literalArray "f#7"], some ⟨1, 1⟩⟩,
        ⟨.defineFunc, [.function "g", .immediate 2], some ⟨2, 2⟩⟩,
        ⟨.fldai, [.double ⟨0x8000000000000000⟩], some ⟨2, 3⟩⟩,
        ⟨.stObjByName, [.register 4, .string "p"], none⟩, ⟨.jeqz, [.offset 6], none⟩, ⟨.jmp, [.offset 0], none⟩],
        [⟨0, 3, 6⟩]) ∧
    Translates true assortedDraft e := by
  refine exists_ok_and ?_ fun e he => translates_of_emit he
  decide +kernel

/-! ## Positions that are off -/

/-- A function of one instruction, whose range starts at an offset of the given text. -/
def rangedDraft (text : String) (start : Nat) : Draft where
  name := "f"
  kind := .plain
  parameterCount := 0
  source := ⟨"m.js", text⟩
  nodes := #[.instruction ⟨.nop, [], some ⟨start, start + 1⟩⟩]

theorem emit_rangedDraft (text : String) (start : Nat) : ∃ e, (rangedDraft text start).emit true = .ok e ∧
    e.function.instructions.map (·.position) = [some ((WordTable.wrapped text).position start)] :=
  ⟨_, rfl, rfl⟩

/-- In a line of 2^32 bytes the sixth one is taken for the first, because the length is zero as a word. And a range
that starts behind a text has the position of its end. -/
theorem rangedDraft_misplaced :
    (∃ e, (rangedDraft (String.ofList (List.replicate 4294967296 'a')) 5).emit true = .ok e ∧
      e.function.instructions.map (·.position) = [some ⟨1, 1⟩] ∧
      Position.ofOffset (String.ofList (List.replicate 4294967296 'a')) 5 = ⟨1, 6⟩) ∧
    ∃ e, (rangedDraft "ab" 100).emit true = .ok e ∧ e.function.instructions.map (·.position) = [some ⟨1, 3⟩] := by
  constructor
  · obtain ⟨e, he, hposition⟩ := emit_rangedDraft (String.ofList (List.replicate 4294967296 'a')) 5
    have hzero : (4294967296 : Nat).toUInt32 = 0 := by decide
    have hfirst : WordTable.position ⟨#[0], 0⟩ 5 = ⟨1, 1⟩ := by decide +kernel
    have hbehind : Position.behind (List.replicate 5 0x61) = ⟨1, 6⟩ := by decide
    refine ⟨e, he, ?_, ?_⟩
    · rw [hposition, WordTable.wrapped_replicate, hzero, hfirst]
    · rw [Position.ofOffset, bytes_replicate, List.take_replicate, Nat.min_eq_left (by decide), hbehind]
  · obtain ⟨e, he, hposition⟩ := emit_rangedDraft "ab" 100
    have hend : (WordTable.wrapped "ab").position 100 = ⟨1, 3⟩ := by decide +kernel
    exact ⟨e, he, by rw [hposition, hend]⟩

end Emission

end ScriptAssembly
