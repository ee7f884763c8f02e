import ScriptAssembly.Proofs.Translation
/-
Where branches, protected ranges and scopes of a finished function lead.

All of them are offsets, and every offset comes from a label. `BindsLabels`
says in terms of the draft what these offsets stand for: the instruction
written next behind the label (`Lands`), and for two labels the instructions
written between them (`Draft.Covers`). Scopes need one induction more, over the
scope tree, to find the variables of each scope among those of the function.
-/
namespace ScriptAssembly

namespace Emission

/-- What a scope becomes: variables, each of which lives for the instructions between the labels of the scope. -/
structure MakesLocals (d : Draft) (s : Draft.Scope) (vs : List Function.LocalVariable) : Prop where
  declared : ∃ m n, d.Covers s.start s.stop m n ∧ vs = s.declared.map (localVariable m n)
  live : ∀ v ∈ vs, ∀ index, v.start ≤ index ∧ index < v.start + v.length ↔ d.Between s.start s.stop index

/-- What an offset of a label leads to: the first instruction behind the last placement of the label, and where there
is none the end of the code. -/
structure Lands (debug : Bool) (d : Draft) (e : Emission) (l : Draft.Label) (n : Nat) : Prop where
  next : ∀ position, Draft.LastPlaced d.nodes.toList l position →
    ∀ later i', position < later → d.nodes.toList[later]? = some (.instruction i') →
    ∃ next i j, Draft.NextInstruction d.nodes.toList position next i ∧
      e.function.instructions[n]? = some j ∧ MakesInstruction debug d e i j
  last : ∀ position, Draft.LastPlaced d.nodes.toList l position →
    (∀ next i, position < next → d.nodes.toList[next]? ≠ some (.instruction i)) →
    n = e.function.instructions.length

/-- An emission whose offsets are those of the labels of a draft. -/
structure BindsLabels (debug : Bool) (d : Draft) (e : Emission) : Prop where
  resolves : ∀ l n, (LabelTable.ofNodes d.nodes.toList).offset l = .ok n ↔ d.Resolves l n
  placed : ∀ l, d.Places l → ∃ n, d.Resolves l n
  operands : List.Forall₂ (fun i j => List.Forall₂ (fun x y => ∀ l, x = .label l → ∃ n, y = .offset n ∧ d.Resolves l n)
    i.operands j.operands) d.instructions e.function.instructions
  catchBlocks : List.Forall₂
    (fun t b => d.Covers t.tryBegin t.tryEnd b.tryBegin b.tryEnd ∧ d.Resolves t.handler b.handler)
    d.catchTables.toList e.function.catchBlocks
  scopes : debug = true → ∃ locals, List.Forall₂ (MakesLocals d) d.scopes locals ∧ e.function.locals = locals.flatten
  lands : ∀ l n, d.Resolves l n → Lands debug d e l n
  covers : ∀ b e m n, d.Resolves b m → d.Resolves e n → d.Covers b e m n

variable {debug : Bool} {d : Draft} {ids : Std.ExtTreeSet UInt32} {e : Emission}

/-! ## Scopes -/

/-- A variable lives for the offsets between those of its scope; a scope that is turned around has none. -/
theorem localVariable_live {m n index : Nat} (v : Draft.Variable) :
    (localVariable m n v).start ≤ index ∧ index < (localVariable m n v).start + (localVariable m n v).length ↔
      m ≤ index ∧ index < n := by
  simp only [localVariable]
  omega

theorem makesLocals {s : Draft.Scope} {m n : Nat} (hm : d.Resolves s.start m) (hn : d.Resolves s.stop n) :
    MakesLocals d s (s.declared.map (localVariable m n)) := by
  have hcovers := Draft.covers_of_resolves hm hn
  refine ⟨⟨m, n, hcovers, rfl⟩, fun v hv index => ?_⟩
  obtain ⟨x, -, rfl⟩ := List.mem_map.mp hv
  rw [localVariable_live, hcovers.inside]

mutual

/-- The variables of a scope tree are those of its scopes, from the outside in. -/
theorem locals_ok : ∀ {s : Draft.Scope} {vs}, (contextOf debug d ids).locals s = .ok vs →
    ∃ locals, List.Forall₂ (MakesLocals d) s.preorder locals ∧ vs = locals.flatten
  | ⟨start, stop, declared, children⟩, vs, h => by
    simp only [Context.locals, bind_eq_ok, pure_eq_ok] at h
    obtain ⟨m, hm, n, hn, inner, hinner, rfl⟩ := h
    obtain ⟨locals, hlocals, rfl⟩ := localsOfAll_ok hinner
    have hown : MakesLocals d ⟨start, stop, declared, children⟩ (declared.map (localVariable m n)) :=
      makesLocals (LabelTable.offset_eq_ok_iff.mp hm) (LabelTable.offset_eq_ok_iff.mp hn)
    exact ⟨declared.map (localVariable m n) :: locals, .cons hown hlocals, rfl⟩

theorem localsOfAll_ok : ∀ {ss : List Draft.Scope} {vs}, (contextOf debug d ids).localsOfAll ss = .ok vs →
    ∃ locals, List.Forall₂ (MakesLocals d) (Draft.preorderOfAll ss) locals ∧ vs = locals.flatten
  | [], vs, h => by
    simp only [Context.localsOfAll] at h
    cases h
    exact ⟨[], .nil, rfl⟩
  | s :: ss, vs, h => by
    simp only [Context.localsOfAll, bind_eq_ok, pure_eq_ok] at h
    obtain ⟨first, hfirst, others, hothers, rfl⟩ := h
    obtain ⟨locals, hlocals, rfl⟩ := locals_ok hfirst
    obtain ⟨more, hmore, rfl⟩ := localsOfAll_ok hothers
    exact ⟨locals ++ more, List.rel_append hlocals hmore, List.flatten_append.symm⟩

end

theorem FromDraft.scopes_ok (h : FromDraft debug d ids e) (hdebug : debug = true) :
    ∃ locals, List.Forall₂ (MakesLocals d) d.scopes locals ∧ e.function.locals = locals.flatten := by
  have hlocals := h.locals
  rw [if_pos hdebug] at hlocals
  exact localsOfAll_ok hlocals

/-! ## Labels -/

theorem exists_resolves {l : Draft.Label} (h : d.Places l) : ∃ n, d.Resolves l n := by
  obtain ⟨n, hn⟩ := (LabelTable.offset_reports d l).ok_iff.mpr (labelFaults_eq_nil.mpr h)
  exact ⟨n, LabelTable.offset_eq_ok_iff.mp hn⟩

theorem FromDraft.lands (h : FromDraft debug d ids e) {l : Draft.Label} {n : Nat} (hn : d.Resolves l n) :
    Lands debug d e l n := by
  obtain ⟨position, hlast, rfl⟩ := hn
  constructor
  · intro position' hlast' later i' hlt hlater
    obtain rfl := hlast.unique hlast'
    obtain ⟨next, i, hnext⟩ := Draft.exists_nextInstruction hlt hlater
    have hat := (hnext.instructionAt hlast.placed).getElem?
    obtain ⟨j, hj, hmakes⟩ := getElem?_forall₂ h.makesInstructions.flip hat
    exact ⟨next, i, j, hnext, hj, hmakes⟩
  · intro position' hlast' hnone
    obtain rfl := hlast.unique hlast'
    have hlt := (List.getElem?_eq_some_iff.mp hlast.placed).1
    rw [h.length_instructions, Draft.instructions, ← Draft.instructionsBefore_length]
    refine (Draft.instructionsBefore_eq (Nat.le_of_lt hlt) fun between i hle hi => ?_).symm
    rcases Nat.eq_or_lt_of_le hle with rfl | hbehind
    · rw [hlast.placed] at hi
      cases hi
    · exact absurd hi (hnone between i hbehind)

theorem MakesOperand.offset_of_label {x : Draft.Operand} {y : Function.Operand} (h : MakesOperand d e x y)
    {l : Draft.Label} (hx : x = .label l) : ∃ n, y = .offset n ∧ d.Resolves l n := by
  subst hx
  cases h with
  | @label _ n hn => exact ⟨n, rfl, hn⟩

/-- **Every offset of a function** is that of a label, and leads to the instructions around the label. -/
theorem bindsLabels_of_emit (h : d.emit debug = .ok e) : BindsLabels debug d e := by
  obtain ⟨ids, hd⟩ := fromDraft_of_emit h
  refine ⟨fun l n => LabelTable.offset_eq_ok_iff, fun l => exists_resolves, ?_, ?_, hd.scopes_ok,
    fun l n => hd.lands, fun b e m n => Draft.covers_of_resolves⟩
  · refine hd.makesInstructions.imp fun i j hij => hij.operands.imp fun x y hxy l => hxy.offset_of_label
  · exact hd.makesCatchBlocks.imp fun t b htb => ⟨Draft.covers_of_resolves htb.tryBegin htb.tryEnd, htb.handler⟩

/-- A loop whose head is placed twice, with a jump ahead to a label at the end, and a scope that is turned around. -/
def loopDraft : Draft where
  name := "f"
  kind := .plain
  parameterCount := 0
  source := ⟨"m.js", ""⟩
  nodes := #[.label ⟨0⟩, .instruction ⟨.ldTrue, [], none⟩, .label ⟨0⟩, .label ⟨1⟩,
    .instruction ⟨.jeqz, [.label ⟨2⟩], none⟩, .instruction ⟨.jmp, [.label ⟨0⟩], none⟩, .label ⟨2⟩]
  catchTables := #[⟨⟨0⟩, ⟨2⟩, ⟨1⟩⟩]
  scope := some ⟨⟨1⟩, ⟨2⟩, [⟨"x", 0⟩], [⟨⟨2⟩, ⟨0⟩, [⟨"y", 1⟩], []⟩]⟩

theorem bindsLabels_of_emit_loop : ∃ e, loopDraft.emit true = .ok e ∧
    (e.function.instructions.map (·.operands), e.function.catchBlocks, e.function.locals) =
      ([[], [.offset 3], [.offset 1]], [⟨1, 3, 1⟩], [⟨"x", "any", 0, 1, 2⟩, ⟨"y", "any", 1, 3, 0⟩]) ∧
    BindsLabels true loopDraft e := by
  refine exists_ok_and ?_ fun e he => bindsLabels_of_emit he
  decide +kernel

end Emission

end ScriptAssembly
