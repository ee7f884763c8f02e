import ScriptAssembly.Proofs.Emission
/-
The faults of a draft, in order of precedence.

Each phase of emission has a list of the faults it looks for, and so the
phases after one another have the lists after one another; emission fails with
the head of the whole list (`ofDraft_reports`). That the list is empty is to say that
the draft is well-formed, which can be told without any order.
-/
namespace ScriptAssembly

/-! ## Well-formed drafts -/

namespace Draft

mutual

/-- A scope, and then the scopes inside it, from the outside in. -/
def Scope.preorder : Scope → List Scope
  | ⟨start, stop, declared, children⟩ => ⟨start, stop, declared, children⟩ :: preorderOfAll children

/-- Scopes that lie side by side, each with those inside it. -/
def preorderOfAll : List Scope → List Scope
  | [] => []
  | s :: ss => s.preorder ++ preorderOfAll ss

end

/-- All scopes of a draft. -/
def scopes (d : Draft) : List Scope := preorderOfAll d.scope.toList

/-- A label is placed somewhere, before its use or behind it. -/
def Places (d : Draft) (l : Label) : Prop := .label l ∈ d.nodes.toList

/-- A literal buffer is stored under an id. -/
def Stores (d : Draft) (id : UInt32) : Prop := id ∈ d.buffers.toList.map (·.id)

instance (d : Draft) (l : Label) : Decidable (d.Places l) := inferInstanceAs (Decidable (_ ∈ _))

instance (d : Draft) (id : UInt32) : Decidable (d.Stores id) := inferInstanceAs (Decidable (_ ∈ _))

/-- A draft without a fault. -/
structure WellFormed (debug : Bool) (d : Draft) : Prop where
  buffers : (d.buffers.toList.map (·.id)).Nodup
  layouts : ∀ i ∈ d.instructions, i.operands.map Operand.kind = i.opcode.layout
  stored : ∀ i ∈ d.instructions, ∀ id, .buffer id ∈ i.operands → d.Stores id
  placed : ∀ i ∈ d.instructions, ∀ l, .label l ∈ i.operands → d.Places l
  catchTables : ∀ t ∈ d.catchTables.toList, d.Places t.tryBegin ∧ d.Places t.tryEnd ∧ d.Places t.handler
  scopes : debug = true → ∀ s ∈ d.scopes, d.Places s.start ∧ d.Places s.stop

end Draft

/-! ## Faults in order -/

namespace Emission

/-- Each id of a list that stands earlier already, in the list itself or among the ids before it. -/
def repeated (before : List UInt32) : List UInt32 → List UInt32
  | [] => []
  | id :: ids => (if id ∈ before then [id] else []) ++ repeated (before ++ [id]) ids

def labelFaults (d : Draft) (l : Draft.Label) : List Fault := if d.Places l then [] else [.unboundLabel l]

def operandFaults (d : Draft) : Draft.Operand → List Fault
  | .buffer id => if d.Stores id then [] else [.unknownBuffer id]
  | .label l => labelFaults d l
  | _ => []

def countFaults (i : Draft.Instruction) : List Fault :=
  if i.operands.length = i.opcode.layout.length then []
  else [.operandCount i.opcode.mnemonic i.opcode.layout.length i.operands.length]

/-- The operands that do not fit their slots, from the left. -/
def kindFaults (i : Draft.Instruction) : List Fault :=
  ((i.opcode.layout.zip i.operands).zipIdx.filter fun s => s.1.2.kind != s.1.1).map fun s =>
    .operandKind i.opcode.mnemonic s.2 s.1.1.name s.1.2.kind.name

def instructionFaults (d : Draft) (i : Draft.Instruction) : List Fault :=
  countFaults i ++ kindFaults i ++ i.operands.flatMap (operandFaults d)

def catchFaults (d : Draft) (t : Draft.CatchTable) : List Fault :=
  labelFaults d t.tryBegin ++ (labelFaults d t.tryEnd ++ labelFaults d t.handler)

def scopeFaults (d : Draft) (s : Draft.Scope) : List Fault := labelFaults d s.start ++ labelFaults d s.stop

/-- The faults of a draft in order of precedence: those of its buffers, its instructions, its catch tables, and
for debug information those of its scopes. -/
def faults (debug : Bool) (d : Draft) : List Fault :=
  (repeated [] (d.buffers.toList.map (·.id))).map .duplicateBuffer ++
    (d.instructions.flatMap (instructionFaults d) ++
      (d.catchTables.toList.flatMap (catchFaults d) ++ if debug then d.scopes.flatMap (scopeFaults d) else []))

/-! ## No faults -/

theorem repeated_eq_nil {before ids : List UInt32} :
    repeated before ids = [] ↔ ids.Nodup ∧ ∀ id ∈ ids, id ∉ before := by
  induction ids generalizing before with
  | nil => simp [repeated]
  | cons id ids ih =>
    simp only [repeated, List.append_eq_nil_iff, ih, List.nodup_cons, List.forall_mem_cons, List.mem_append,
      List.mem_singleton, not_or]
    by_cases hid : id ∈ before
    · simp [hid]
    · simp only [hid, if_false, true_and, not_false_eq_true]
      constructor
      · intro h
        exact ⟨⟨fun hmem => (h.2 id hmem).2 rfl, h.1⟩, fun x hx => (h.2 x hx).1⟩
      · intro h
        exact ⟨h.1.2, fun x hx => ⟨h.2 x hx, fun heq => h.1.1 (heq ▸ hx)⟩⟩

theorem labelFaults_eq_nil {d : Draft} {l : Draft.Label} : labelFaults d l = [] ↔ d.Places l := by
  simp [labelFaults]

theorem operandFaults_eq_nil {d : Draft} {x : Draft.Operand} :
    operandFaults d x = [] ↔ (∀ id, x = .buffer id → d.Stores id) ∧ ∀ l, x = .label l → d.Places l := by
  cases x <;> simp [operandFaults, labelFaults]

/-- Operands fit their slots where they are as many and each is of its slot's kind. -/
theorem layoutFaults_eq_nil {i : Draft.Instruction} :
    countFaults i ++ kindFaults i = [] ↔ i.operands.map Draft.Operand.kind = i.opcode.layout := by
  have hkinds : kindFaults i = [] ↔ ∀ p ∈ i.opcode.layout.zip i.operands, p.2.kind = p.1 := by
    rw [kindFaults, List.map_eq_nil_iff, List.filter_eq_nil_iff]
    constructor
    · intro h p hp
      obtain ⟨n, hn⟩ := List.mem_iff_getElem?.mp hp
      simpa using h (p, n) (List.mk_mem_zipIdx_iff_getElem?.mpr hn)
    · intro h s hs
      simpa using h s.1 (List.mem_of_getElem? (List.mem_zipIdx_iff_getElem?.mp hs))
  have hcount : countFaults i = [] ↔ i.opcode.layout.length = i.operands.length := by
    simp [countFaults, eq_comm]
  have hforall : List.Forall₂ (fun slot x => slot = x.kind) i.opcode.layout i.operands ↔
      i.operands.map Draft.Operand.kind = i.opcode.layout := by
    rw [← List.forall₂_map_right_iff, List.forall₂_eq_eq_eq, eq_comm]
  rw [List.append_eq_nil_iff, hcount, hkinds, ← hforall, List.forall₂_iff_zip]
  refine and_congr_right fun _ => ?_
  simp only [Prod.forall]
  exact forall₂_congr fun slot x => imp_congr_right fun _ => eq_comm

theorem instructionFaults_eq_nil {d : Draft} {i : Draft.Instruction} :
    instructionFaults d i = [] ↔ i.operands.map Draft.Operand.kind = i.opcode.layout ∧
      (∀ id, .buffer id ∈ i.operands → d.Stores id) ∧ ∀ l, .label l ∈ i.operands → d.Places l := by
  rw [instructionFaults, List.append_eq_nil_iff, layoutFaults_eq_nil, List.flatMap_eq_nil_iff]
  refine and_congr_right fun _ => ?_
  simp only [operandFaults_eq_nil]
  constructor
  · intro h
    exact ⟨fun id hid => (h _ hid).1 id rfl, fun l hl => (h _ hl).2 l rfl⟩
  · intro h x hx
    exact ⟨fun id heq => h.1 id (heq ▸ hx), fun l heq => h.2 l (heq ▸ hx)⟩

theorem catchFaults_eq_nil {d : Draft} {t : Draft.CatchTable} :
    catchFaults d t = [] ↔ d.Places t.tryBegin ∧ d.Places t.tryEnd ∧ d.Places t.handler := by
  simp only [catchFaults, List.append_eq_nil_iff, labelFaults_eq_nil]

theorem scopeFaults_eq_nil {d : Draft} {s : Draft.Scope} :
    scopeFaults d s = [] ↔ d.Places s.start ∧ d.Places s.stop := by
  simp only [scopeFaults, List.append_eq_nil_iff, labelFaults_eq_nil]

/-- A draft has no fault where it is well-formed. -/
theorem faults_eq_nil {debug : Bool} {d : Draft} : faults debug d = [] ↔ d.WellFormed debug := by
  have hbuffers : repeated [] (d.buffers.toList.map (·.id)) = [] ↔ (d.buffers.toList.map (·.id)).Nodup := by
    simp [repeated_eq_nil]
  have hscopes : (if debug then d.scopes.flatMap (scopeFaults d) else []) = [] ↔
      (debug = true → ∀ s ∈ d.scopes, d.Places s.start ∧ d.Places s.stop) := by
    cases debug <;> simp [scopeFaults_eq_nil]
  simp only [faults, List.append_eq_nil_iff, List.map_eq_nil_iff, List.flatMap_eq_nil_iff, hbuffers, hscopes,
    instructionFaults_eq_nil, catchFaults_eq_nil]
  constructor
  · intro h
    obtain ⟨hids, hi, hc, hs⟩ := h
    exact ⟨hids, fun i hm => (hi i hm).1, fun i hm => (hi i hm).2.1, fun i hm => (hi i hm).2.2, hc, hs⟩
  · intro h
    exact ⟨h.buffers, fun i hm => ⟨h.layouts i hm, h.stored i hm, h.placed i hm⟩, h.catchTables, h.scopes⟩

/-! ## Emission reports the first fault -/

theorem LabelTable.mem_extend {t : LabelTable} {n : Nat} {nodes : List Draft.Node} {l : Draft.Label} :
    l.number ∈ (t.extend n nodes).offsets ↔ l.number ∈ t.offsets ∨ .label l ∈ nodes := by
  induction nodes generalizing t n with
  | nil => simp [extend]
  | cons node nodes ih =>
    cases node with
    | label placed =>
      have hnumber : placed.number = l.number ↔ l = placed := by
        cases l
        cases placed
        simp [eq_comm]
      simp only [extend, ih, Std.ExtTreeMap.mem_insert, Std.LawfulEqCmp.compare_eq_iff_eq, hnumber, List.mem_cons,
        Draft.Node.label.injEq]
      tauto
    | instruction i => simp [extend, ih]

theorem LabelTable.offset_reports (d : Draft) (l : Draft.Label) :
    Reports ((ofNodes d.nodes.toList).offset l) (labelFaults d l) := by
  have hplaces : d.Places l ↔ l.number ∈ (ofNodes d.nodes.toList).offsets := by
    simp [ofNodes, LabelTable.mem_extend, Draft.Places]
  rw [labelFaults, offset]
  split
  next n hn =>
    have hmem : d.Places l := hplaces.mpr (Std.ExtTreeMap.mem_iff_isSome_getElem?.mpr (by rw [hn]; rfl))
    rw [if_pos hmem]
    rfl
  next hn =>
    have hnot : ¬ d.Places l := by
      rw [hplaces, Std.ExtTreeMap.mem_iff_isSome_getElem?, hn]
      simp
    rw [if_neg hnot]
    rfl

theorem foldlM_addId_reports {bs : List Draft.LiteralBuffer} {ids : Std.ExtTreeSet UInt32} {before : List UInt32}
    (h : ∀ id, id ∈ ids ↔ id ∈ before) :
    Reports (bs.foldlM addId ids) ((repeated before (bs.map (·.id))).map .duplicateBuffer) := by
  induction bs generalizing ids before with
  | nil => exact .pure ids
  | cons b bs ih =>
    rw [List.foldlM_cons, List.map_cons, repeated, List.map_append]
    refine Reports.bind ?_ fun ids' hids' => ih fun id => ?_
    · simp only [addId, h]
      split <;> rfl
    · unfold addId at hids'
      split at hids'
      · cases hids'
      · cases hids'
        simp only [Std.ExtTreeSet.mem_insert, Std.LawfulEqCmp.compare_eq_iff_eq, h, List.mem_append, List.mem_singleton]
        tauto

theorem bufferIds_reports (bs : List Draft.LiteralBuffer) :
    Reports (bufferIds bs) ((repeated [] (bs.map (·.id))).map .duplicateBuffer) := by
  have hfold : Reports (bs.foldlM addId ∅) ((repeated [] (bs.map (·.id))).map .duplicateBuffer) :=
    foldlM_addId_reports (by simp)
  exact hfold

theorem checkOperands_reports (i : Draft.Instruction) : Reports (checkOperands i) (countFaults i ++ kindFaults i) := by
  unfold checkOperands countFaults
  by_cases hcount : i.operands.length = i.opcode.layout.length
  · simp only [hcount, ne_eq, not_true_eq_false, if_false, if_true, List.nil_append]
    split
    next slot x n hfind =>
      show (kindFaults i).head? = _
      rw [kindFaults, List.head?_map, List.head?_filter, hfind]
      rfl
    next hfind =>
      show kindFaults i = []
      rw [kindFaults, ← List.head?_eq_none_iff, List.head?_map, List.head?_filter, hfind]
      rfl
  · simp only [hcount, ne_eq, not_false_eq_true, if_true, if_false]
    rfl

variable {debug : Bool} {d : Draft} {ids : Std.ExtTreeSet UInt32}

theorem Context.operand_reports (hids : ∀ id, id ∈ ids ↔ d.Stores id) (x : Draft.Operand) :
    Reports ((contextOf debug d ids).operand x) (operandFaults d x) := by
  cases x with
  | buffer id =>
    simp only [operand, operandFaults, contextOf, hids]
    split <;> rfl
  | label l => exact (LabelTable.offset_reports d l).bind_pure _
  | register | immediate | double | string | function => rfl

theorem Context.instruction_reports (hids : ∀ id, id ∈ ids ↔ d.Stores id) (i : Draft.Instruction) :
    Reports ((contextOf debug d ids).instruction i) (instructionFaults d i) := by
  refine (checkOperands_reports i).bind fun _ _ => ?_
  exact (Reports.mapM fun x _ => operand_reports hids x).bind_pure _

theorem Context.catchBlock_reports (t : Draft.CatchTable) :
    Reports ((contextOf debug d ids).catchBlock t) (catchFaults d t) := by
  refine (LabelTable.offset_reports d t.tryBegin).bind fun _ _ => ?_
  refine (LabelTable.offset_reports d t.tryEnd).bind fun _ _ => ?_
  exact (LabelTable.offset_reports d t.handler).bind_pure _

mutual

theorem Context.locals_reports : ∀ s : Draft.Scope,
    Reports ((contextOf debug d ids).locals s) (s.preorder.flatMap (scopeFaults d))
  | ⟨start, stop, declared, children⟩ => by
    rw [Draft.Scope.preorder, List.flatMap_cons, scopeFaults, List.append_assoc, locals]
    refine (LabelTable.offset_reports d start).bind fun _ _ => ?_
    refine (LabelTable.offset_reports d stop).bind fun _ _ => ?_
    exact (Context.localsOfAll_reports children).bind_pure _

theorem Context.localsOfAll_reports : ∀ ss : List Draft.Scope,
    Reports ((contextOf debug d ids).localsOfAll ss) ((Draft.preorderOfAll ss).flatMap (scopeFaults d))
  | [] => rfl
  | s :: ss => by
    rw [Draft.preorderOfAll, List.flatMap_append, localsOfAll]
    refine (Context.locals_reports s).bind fun _ _ => ?_
    exact (Context.localsOfAll_reports ss).bind_pure _

end

/-- Emission fails with the first fault of the draft, and succeeds where it has none. -/
theorem ofDraft_reports (debug : Bool) (d : Draft) : Reports (ofDraft debug d) (faults debug d) := by
  rw [ofDraft, faults]
  refine (bufferIds_reports d.buffers.toList).bind fun ids hids => ?_
  -- Behind the buffers no id is repeated, and the set that has been built is that of the ids stored.
  have hstores : ∀ id, id ∈ ids ↔ d.Stores id := by
    simp [(bufferIds_ok hids).2, Draft.Stores]
  refine (Reports.mapM fun i _ => Context.instruction_reports hstores i).bind fun instructions _ => ?_
  refine (Reports.mapM fun t _ => Context.catchBlock_reports t).bind fun catchBlocks _ => ?_
  cases debug with
  | true => exact (Context.localsOfAll_reports d.scope.toList).bind_pure _
  | false => rfl

end Emission

theorem Draft.emit_reports (debug : Bool) (d : Draft) :
    Reports (d.emit debug) ((Emission.faults debug d).map (EmissionError.mk d.name)) :=
  (Emission.ofDraft_reports debug d).mapError _

/-- Emission succeeds with the drafts that are well-formed. -/
theorem Draft.emit_ok_iff {debug : Bool} {d : Draft} : (∃ e, d.emit debug = .ok e) ↔ d.WellFormed debug := by
  rw [(emit_reports debug d).ok_iff, List.map_eq_nil_iff, Emission.faults_eq_nil]

/-- **A draft is emitted where it is well-formed**, and everywhere else its first fault is reported under the
function's name. -/
theorem Draft.emit_first_fault (debug : Bool) (d : Draft) :
    ((∃ e, d.emit debug = .ok e) ↔ d.WellFormed debug) ∧
    ∀ error, d.emit debug = .error error ↔
      error.function = d.name ∧ (Emission.faults debug d).head? = some error.fault := by
  constructor
  · exact emit_ok_iff
  · intro error
    rw [(emit_reports debug d).error_iff, List.head?_map, Option.map_eq_some_iff]
    cases error
    simp [and_comm, eq_comm]

end ScriptAssembly
