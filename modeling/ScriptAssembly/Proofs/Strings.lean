import ScriptAssembly.Proofs.Emitter
import ScriptAssembly.Proofs.Linked
import ScriptAssembly.Proofs.Translation
/-
The strings of a function.

The table of strings has what instructions have as operands and what literal
buffers contain, and nothing else. An operand is a string in the function where
it is one in the draft, so the draft alone tells what there is to collect
(`Draft.Mentions`), and positions, variables and the source have no part in it.
Neither have names: a draft in other words (`Draft.reword`) has other names
for its functions, methods and variables and comes from another file, yet it
is emitted whenever the first one is, and with the same strings.
-/
namespace ScriptAssembly

/-! ## Other words -/

variable (text : String → String)

/-- The literal with another name, where it names a function. -/
def Literal.reword : Literal → Literal
  | .method f => .method (text f)
  | .generatorMethod f => .generatorMethod (text f)
  | x => x

namespace Draft

def Operand.reword : Operand → Operand
  | .function f => .function (text f)
  | x => x

def Instruction.reword (i : Instruction) : Instruction := { i with operands := i.operands.map (·.reword text) }

def Node.reword : Node → Node
  | .label l => .label l
  | .instruction i => .instruction (i.reword text)

def Variable.reword (v : Variable) : Variable := { v with name := text v.name }

def LiteralBuffer.reword (b : LiteralBuffer) : LiteralBuffer := { b with literals := b.literals.map (·.reword text) }

mutual

def Scope.reword : Scope → Scope
  | ⟨start, stop, declared, children⟩ => ⟨start, stop, declared.map (·.reword text), rewordAll children⟩

def rewordAll : List Scope → List Scope
  | [] => []
  | s :: ss => s.reword :: rewordAll ss

end

/-- The draft with everything replaced that is a name, or comes from the source file. -/
def reword (d : Draft) : Draft :=
  { d with
    name := text d.name
    source := ⟨text d.source.path, text d.source.text⟩
    nodes := d.nodes.map (·.reword text)
    scope := d.scope.map (·.reword text)
    buffers := d.buffers.map (·.reword text) }

/-- A string that an instruction has as an operand or a literal buffer contains, whether it is referred to or not. -/
def Mentions (d : Draft) (string : String) : Prop :=
  (∃ i ∈ d.instructions, .string string ∈ i.operands) ∨ ∃ b ∈ d.buffers.toList, .string string ∈ b.literals

variable {text} {d : Draft}

/-! ## What other words leave as it is -/

theorem Operand.kind_reword (x : Operand) : (x.reword text).kind = x.kind := by
  cases x <;> rfl

/-- Operands that are no function names are kept, and none are added. -/
theorem Operand.mem_map_reword {xs : List Operand} {y : Operand} (hy : y.kind ≠ .function) :
    y ∈ xs.map (·.reword text) ↔ y ∈ xs := by
  have heq : ∀ x : Operand, x.reword text = y ↔ x = y := by
    intro x
    cases x with
    | function f => cases y <;> simp_all [reword, kind]
    | register | immediate | double | string | buffer | label => rfl
  simp only [List.mem_map, heq, exists_eq_right]

theorem instructions_reword : (d.reword text).instructions = d.instructions.map (·.reword text) := by
  simp only [instructions, reword, Array.toList_map, List.filterMap_map, List.map_filterMap]
  congr 1
  funext node
  cases node <;> rfl

theorem places_reword {l : Label} : (d.reword text).Places l ↔ d.Places l := by
  have heq : ∀ node : Node, node.reword text = .label l ↔ node = .label l := by
    intro node
    cases node <;> simp [Node.reword]
  simp only [Places, reword, Array.toList_map, List.mem_map, heq, exists_eq_right]

theorem ids_reword : (d.reword text).buffers.toList.map (·.id) = d.buffers.toList.map (·.id) := by
  simp only [reword, Array.toList_map, List.map_map]
  rfl

mutual

theorem Scope.preorder_reword : ∀ s : Scope, (s.reword text).preorder = s.preorder.map (·.reword text)
  | ⟨start, stop, declared, children⟩ => by
    rw [Scope.reword, Scope.preorder, Scope.preorder, List.map_cons, preorderOfAll_reword children, Scope.reword]

theorem preorderOfAll_reword : ∀ ss : List Scope,
    preorderOfAll (rewordAll text ss) = (preorderOfAll ss).map (·.reword text)
  | [] => rfl
  | s :: ss => by
    rw [rewordAll, preorderOfAll, preorderOfAll, List.map_append, Scope.preorder_reword s, preorderOfAll_reword ss]

end

theorem scopes_reword : (d.reword text).scopes = d.scopes.map (·.reword text) := by
  have hscope : (d.scope.map (·.reword text)).toList = rewordAll text d.scope.toList := by
    cases d.scope <;> rfl
  rw [scopes, reword, hscope, preorderOfAll_reword, scopes]

theorem WellFormed.reword {debug : Bool} (h : d.WellFormed debug) : (d.reword text).WellFormed debug where
  buffers := by
    rw [ids_reword]
    exact h.buffers
  layouts := by
    rw [instructions_reword, List.forall_mem_map]
    intro i hi
    rw [Instruction.reword, List.map_map, ← h.layouts i hi]
    exact List.map_congr_left fun x _ => x.kind_reword
  stored := by
    rw [instructions_reword, List.forall_mem_map]
    intro i hi id hid
    unfold Stores
    rw [ids_reword]
    exact h.stored i hi id ((Operand.mem_map_reword (by simp [Operand.kind])).mp hid)
  placed := by
    rw [instructions_reword, List.forall_mem_map]
    intro i hi l hl
    exact places_reword.mpr (h.placed i hi l ((Operand.mem_map_reword (by simp [Operand.kind])).mp hl))
  catchTables t ht := by
    simpa only [places_reword] using h.catchTables t ht
  scopes hdebug := by
    rw [scopes_reword, List.forall_mem_map]
    rintro ⟨start, stop, declared, children⟩ hs
    simpa only [places_reword, Scope.reword] using h.scopes hdebug _ hs

/-- In other words, the same strings are mentioned. -/
theorem mentions_reword {string : String} : (d.reword text).Mentions string ↔ d.Mentions string := by
  have hliteral : ∀ x : Literal, x.reword text = .string string ↔ x = .string string := by
    intro x
    cases x <;> simp [Literal.reword]
  have hoperand : ∀ i : Instruction, .string string ∈ (i.reword text).operands ↔ .string string ∈ i.operands :=
    fun i => Operand.mem_map_reword (by simp [Operand.kind])
  have hbuffer : ∀ b : LiteralBuffer, .string string ∈ (b.reword text).literals ↔ .string string ∈ b.literals := by
    intro b
    simp only [LiteralBuffer.reword, List.mem_map, hliteral, exists_eq_right]
  have hbuffers : (d.reword text).buffers.toList = d.buffers.toList.map (·.reword text) := Array.toList_map
  simp only [Mentions, instructions_reword, hbuffers, List.mem_map, exists_exists_and_eq_and, hoperand, hbuffer]

end Draft

namespace Emission

/-! ## Strings -/

/-- A table of strings that has the strings of its function and of its literal buffers, however it is come by. -/
structure CollectsStrings (debug : Bool) (d : Draft) (e : Emission) : Prop where
  mem : ∀ string, string ∈ e.strings ↔ (∃ i ∈ e.function.instructions, .string string ∈ i.operands) ∨
    ∃ b ∈ d.buffers.toList, .string string ∈ b.literals
  /-- Filled as emission goes on, with strings that are put in where they are met, it is the same table. -/
  inPlace : ∃ s, (InPlace.emit debug d).run (.start d) = .ok () s ∧ s.emission = e
  /-- Debug information makes no difference. -/
  either : ∀ debug' e', d.emit debug' = .ok e' → e'.strings = e.strings
  /-- Names and the source make no difference. -/
  names : ∀ text, ∃ e', (d.reword text).emit debug = .ok e' ∧ e'.strings = e.strings

variable {debug : Bool} {d : Draft} {ids : Std.ExtTreeSet UInt32} {e : Emission}

theorem mem_strings_literals {literals : List Literal} {string : String} :
    string ∈ Literal.strings literals ↔ .string string ∈ literals := by
  have hliteral : ∀ x : Literal, x.string? = some string ↔ x = .string string := by
    intro x
    cases x <;> simp [Literal.string?]
  simp only [Literal.strings, List.mem_filterMap, hliteral, exists_eq_right]

/-- The strings among the operands of a function are those of the draft. -/
theorem FromDraft.exists_string_operand (h : FromDraft debug d ids e) {string : String} :
    (∃ i ∈ e.function.instructions, .string string ∈ i.operands) ↔
      ∃ i ∈ d.instructions, .string string ∈ i.operands := by
  refine (exists_mem_iff_of_forall₂ h.instructions fun i j hj => ?_).symm
  have hoperands : (∃ x ∈ i.operands, x = .string string) ↔ ∃ y ∈ j.operands, y = .string string := by
    refine exists_mem_iff_of_forall₂ (Context.instruction_ok hj) fun x y hy => ?_
    cases h.makesOperand hy <;> simp
  simpa only [exists_eq_right] using hoperands

/-- The table has what the draft mentions. -/
theorem mem_strings_iff_mentions (h : d.emit debug = .ok e) {string : String} :
    string ∈ e.strings ↔ d.Mentions string := by
  obtain ⟨ids, hd⟩ := fromDraft_of_emit h
  simp only [hd.mem_strings, hd.exists_string_operand, mem_strings_literals, Draft.Mentions]

/-- **A table of strings has the strings of its function's instructions and literal buffers, and no others.** -/
theorem collectsStrings_of_emit (h : d.emit debug = .ok e) : CollectsStrings debug d e where
  mem string := by
    obtain ⟨ids, hd⟩ := fromDraft_of_emit h
    simp only [hd.mem_strings, mem_strings_literals]
  inPlace := by
    obtain ⟨ids, hd⟩ := fromDraft_of_emit h
    have hcarries := InPlace.emit_carries debug d
    rw [ofDraft_eq_ok.mpr ⟨ids, hd⟩] at hcarries
    obtain ⟨_, s, hrun, hs⟩ := hcarries
    exact ⟨s, hrun, hs⟩
  either debug' e' h' := by
    refine Std.ExtTreeSet.ext_mem fun string => ?_
    rw [mem_strings_iff_mentions h', mem_strings_iff_mentions h]
  names text := by
    have hd : d.WellFormed debug := Draft.emit_ok_iff.mp ⟨e, h⟩
    have hreword : (d.reword text).WellFormed debug := hd.reword
    obtain ⟨e', h'⟩ := Draft.emit_ok_iff.mpr hreword
    refine ⟨e', h', Std.ExtTreeSet.ext_mem fun string => ?_⟩
    rw [mem_strings_iff_mentions h', mem_strings_iff_mentions h, Draft.mentions_reword]

/-- A function with names of all sorts, a string in both phases, and a buffer that no instruction refers to. -/
def wordyDraft : Draft where
  name := "f"
  kind := .plain
  parameterCount := 0
  source := ⟨"m.js", "s"⟩
  nodes := #[.label ⟨0⟩, .instruction ⟨.ldaStr, [.string "b"], none⟩,
    .instruction ⟨.createArrayWithBuffer, [.buffer 0], some ⟨0, 1⟩⟩,
    .instruction ⟨.defineFunc, [.function "g", .immediate 0], none⟩]
  scope := some ⟨⟨0⟩, ⟨0⟩, [⟨"x", 0⟩], []⟩
  buffers := #[⟨0, [.method "m", .string "b", .string "c"]⟩, ⟨7, [.generatorMethod "n", .string "a"]⟩]

theorem collectsStrings_of_emit_wordy : ∃ e, wordyDraft.emit true = .ok e ∧ e.strings.toList = ["a", "b", "c"] ∧
    CollectsStrings true wordyDraft e := by
  refine exists_ok_and ?_ fun e he => collectsStrings_of_emit he
  decide +kernel

end Emission

end ScriptAssembly
