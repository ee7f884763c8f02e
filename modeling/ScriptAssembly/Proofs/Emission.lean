import ScriptAssembly.Emission.Basic
import ScriptAssembly.Proofs.Except
import ScriptAssembly.Proofs.Lists
/-
What a successful emission tells of the function it made.

`FromDraft` takes emission apart, once and for all; the rest follows from it.
Buffer ids are all different; a resolved operand shows what it was in the
draft; and no offset points behind the last instruction.
-/
namespace ScriptAssembly

namespace Emission

/-! ## Buffer ids -/

/-- One step of `bufferIds`: an id is added if it is a new one. -/
def addId (ids : Std.ExtTreeSet UInt32) (b : Draft.LiteralBuffer) : Except Fault (Std.ExtTreeSet UInt32) :=
  if b.id ∈ ids then .error (.duplicateBuffer b.id) else .ok (ids.insert b.id)

theorem foldlM_addId_ok {bs : List Draft.LiteralBuffer} {ids ids' : Std.ExtTreeSet UInt32}
    (h : bs.foldlM addId ids = .ok ids') :
    (bs.map (·.id)).Nodup ∧ (∀ b ∈ bs, b.id ∉ ids) ∧ ∀ id, id ∈ ids' ↔ id ∈ ids ∨ id ∈ bs.map (·.id) := by
  induction bs generalizing ids with
  | nil =>
    simp only [List.foldlM_nil, pure_eq_ok] at h
    subst h
    simp
  | cons b bs ih =>
    simp only [List.foldlM_cons, bind_eq_ok] at h
    obtain ⟨ids₁, h₁, h₂⟩ := h
    unfold addId at h₁
    split at h₁
    · cases h₁
    next hb =>
    cases h₁
    obtain ⟨hn, hf, hm⟩ := ih h₂
    simp only [Std.ExtTreeSet.mem_insert, Std.LawfulEqCmp.compare_eq_iff_eq, not_or] at hf hm
    refine ⟨?_, ?_, fun id => ?_⟩
    · simp only [List.map_cons, List.nodup_cons, List.mem_map, not_exists, not_and]
      exact ⟨fun c hc he => (hf c hc).1 he.symm, hn⟩
    · simp only [List.mem_cons, forall_eq_or_imp]
      exact ⟨hb, fun c hc => (hf c hc).2⟩
    · rw [hm, List.map_cons, List.mem_cons, eq_comm (a := id)]
      tauto

/-- Accepted buffers have ids of their own, and these are the known ids. -/
theorem bufferIds_ok {bs : List Draft.LiteralBuffer} {ids : Std.ExtTreeSet UInt32} (h : bufferIds bs = .ok ids) :
    (bs.map (·.id)).Nodup ∧ ∀ id, id ∈ ids ↔ ∃ b ∈ bs, b.id = id := by
  have hfold : bs.foldlM addId ∅ = .ok ids := h
  obtain ⟨hn, -, hm⟩ := foldlM_addId_ok hfold
  refine ⟨hn, fun id => ?_⟩
  rw [hm]
  simp

/-! ## Emission taken apart -/

/-- What the operands of a draft are resolved against. -/
def contextOf (debug : Bool) (d : Draft) (ids : Std.ExtTreeSet UInt32) : Context :=
  ⟨d.name, .ofNodes d.nodes.toList, ids, if debug then some d.source.lines else none⟩

/-- An emission made from a draft whose buffers have the given ids. -/
structure FromDraft (debug : Bool) (d : Draft) (ids : Std.ExtTreeSet UInt32) (e : Emission) : Prop where
  distinct : bufferIds d.buffers.toList = .ok ids
  name : e.function.name = d.name
  kind : e.function.kind = d.kind
  parameterCount : e.function.parameterCount = d.parameterCount
  instructions : List.Forall₂ (fun i j => (contextOf debug d ids).instruction i = .ok j) d.instructions
    e.function.instructions
  catchBlocks : List.Forall₂ (fun t b => (contextOf debug d ids).catchBlock t = .ok b) d.catchTables.toList
    e.function.catchBlocks
  locals : (if debug then (contextOf debug d ids).localsOfAll d.scope.toList else .ok []) = .ok e.function.locals
  source : e.function.source = if debug then some (sourceInfo d) else none
  buffers : e.buffers = d.buffers.toList
  strings : e.strings = collectStrings e.function.instructions d.buffers.toList

/-- Emission succeeds with what is made from the draft and with nothing else. -/
theorem ofDraft_eq_ok {debug : Bool} {d : Draft} {e : Emission} :
    ofDraft debug d = .ok e ↔ ∃ ids, FromDraft debug d ids e := by
  simp only [ofDraft, bind_eq_ok]
  constructor
  · intro h
    obtain ⟨ids, hids, instructions, hi, catchBlocks, hc, h⟩ := h
    refine ⟨ids, ?_⟩
    cases debug <;>
    · obtain ⟨locals, hl, he⟩ := bind_eq_ok.mp h
      obtain rfl := pure_eq_ok.mp he
      exact ⟨hids, rfl, rfl, rfl, mapM_eq_ok.mp hi, mapM_eq_ok.mp hc, hl, rfl, rfl, rfl⟩
  · intro h
    obtain ⟨ids, h⟩ := h
    refine ⟨ids, h.distinct, _, mapM_eq_ok.mpr h.instructions, _, mapM_eq_ok.mpr h.catchBlocks, ?_⟩
    have he : e = ⟨⟨d.name, d.kind, d.parameterCount, e.function.instructions, e.function.catchBlocks,
        e.function.locals, if debug then some (sourceInfo d) else none⟩, d.buffers.toList,
        collectStrings e.function.instructions d.buffers.toList⟩ := by
      rw [← h.name, ← h.kind, ← h.parameterCount, ← h.source, ← h.strings, ← h.buffers]
    cases debug <;> exact bind_eq_ok.mpr ⟨_, h.locals, pure_eq_ok.mpr he.symm⟩

/-- An emitted draft is taken apart. -/
theorem fromDraft_of_emit {debug : Bool} {d : Draft} {e : Emission} (h : d.emit debug = .ok e) :
    ∃ ids, FromDraft debug d ids e :=
  ofDraft_eq_ok.mp (mapError_eq_ok.mp h)

theorem name_of_emit {debug : Bool} {d : Draft} {e : Emission} (h : d.emit debug = .ok e) :
    e.function.name = d.name := by
  obtain ⟨ids, hd⟩ := fromDraft_of_emit h
  exact hd.name

theorem FromDraft.length_instructions {debug : Bool} {d : Draft} {ids : Std.ExtTreeSet UInt32} {e : Emission}
    (h : FromDraft debug d ids e) : e.function.instructions.length = d.instructions.length :=
  h.instructions.length_eq.symm

theorem FromDraft.nodup_ids {debug : Bool} {d : Draft} {ids : Std.ExtTreeSet UInt32} {e : Emission}
    (h : FromDraft debug d ids e) : (e.buffers.map (·.id)).Nodup :=
  h.buffers ▸ (bufferIds_ok h.distinct).1

/-! ## Operands -/

theorem Context.instruction_ok {c : Context} {i : Draft.Instruction} {j : Function.Instruction}
    (h : c.instruction i = .ok j) : List.Forall₂ (fun x y => c.operand x = .ok y) i.operands j.operands := by
  simp only [Context.instruction, bind_eq_ok, pure_eq_ok] at h
  obtain ⟨_, _, operands, ho, rfl⟩ := h
  exact mapM_eq_ok.mp ho

/-- A key is that of a buffer which the draft's operand names. -/
theorem Context.operand_literalArray {c : Context} {x : Draft.Operand} {key : String}
    (h : c.operand x = .ok (.literalArray key)) :
    ∃ id, x = .buffer id ∧ id ∈ c.buffers ∧ key = bufferKey c.function id := by
  cases x with
  | buffer id =>
    simp only [Context.operand] at h
    split at h
    next hid => cases h; exact ⟨id, rfl, hid, rfl⟩
    · cases h
  | label l =>
    simp only [Context.operand, bind_eq_ok, pure_eq_ok] at h
    obtain ⟨_, _, h⟩ := h
    cases h
  | register | immediate | double | string | function => cases h

/-- An offset is that of a label which the draft's operand names. -/
theorem Context.operand_offset {c : Context} {x : Draft.Operand} {n : Nat} (h : c.operand x = .ok (.offset n)) :
    ∃ l, x = .label l ∧ c.labels.offset l = .ok n := by
  cases x with
  | buffer id =>
    simp only [Context.operand] at h
    split at h <;> cases h
  | label l =>
    simp only [Context.operand, bind_eq_ok, pure_eq_ok] at h
    obtain ⟨m, hm, h⟩ := h
    cases h
    exact ⟨l, rfl, hm⟩
  | register | immediate | double | string | function => cases h

/-! ## Offsets -/

theorem LabelTable.extend_le {t : LabelTable} {n : Nat} {nodes : List Draft.Node}
    (ht : ∀ (l : UInt32) (k : Nat), t.offsets[l]? = some k → k ≤ n) {l : UInt32} {k : Nat}
    (h : (t.extend n nodes).offsets[l]? = some k) :
    k ≤ n + (nodes.filterMap Draft.Node.instruction?).length := by
  induction nodes generalizing t n with
  | nil => exact ht l k h
  | cons node nodes ih =>
    cases node with
    | label placed =>
      simp only [LabelTable.extend] at h
      refine ih (fun l' k' hk => ?_) h
      simp only [Std.ExtTreeMap.getElem?_insert] at hk
      split at hk
      · cases hk; exact Nat.le_refl n
      · exact ht l' k' hk
    | instruction i =>
      simp only [LabelTable.extend] at h
      have hk := ih (fun l' k' hk => Nat.le_succ_of_le (ht l' k' hk)) h
      simp only [List.filterMap_cons, Draft.Node.instruction?, List.length_cons]
      omega

/-- No label of a draft stands behind its last instruction. -/
theorem offset_le {debug : Bool} {d : Draft} {ids : Std.ExtTreeSet UInt32} {l : Draft.Label} {n : Nat}
    (h : (contextOf debug d ids).labels.offset l = .ok n) : n ≤ d.instructions.length := by
  simp only [contextOf, LabelTable.offset] at h
  split at h
  next k hk =>
    cases h
    simpa [Draft.instructions] using LabelTable.extend_le (t := ⟨∅⟩) (n := 0) (by simp) hk
  · cases h

theorem localVariable_le {start stop size : Nat} (hs : start ≤ size) (he : stop ≤ size) (v : Draft.Variable) :
    (localVariable start stop v).start + (localVariable start stop v).length ≤ size := by
  simp only [localVariable]
  omega

mutual

theorem Context.locals_le {c : Context} {size : Nat} (hc : ∀ l n, c.labels.offset l = .ok n → n ≤ size) :
    ∀ {s : Draft.Scope} {vs}, c.locals s = .ok vs → ∀ v ∈ vs, v.start + v.length ≤ size
  | ⟨start, stop, declared, children⟩, vs, h => by
    simp only [Context.locals, bind_eq_ok, pure_eq_ok] at h
    obtain ⟨a, ha, b, hb, inner, hi, rfl⟩ := h
    simp only [List.mem_append, List.mem_map]
    intro v hv
    rcases hv with ⟨x, -, rfl⟩ | hv
    · exact localVariable_le (hc _ _ ha) (hc _ _ hb) x
    · exact Context.localsOfAll_le hc hi v hv

theorem Context.localsOfAll_le {c : Context} {size : Nat} (hc : ∀ l n, c.labels.offset l = .ok n → n ≤ size) :
    ∀ {ss : List Draft.Scope} {vs}, c.localsOfAll ss = .ok vs → ∀ v ∈ vs, v.start + v.length ≤ size
  | [], vs, h => by
    simp only [Context.localsOfAll] at h
    cases h
    simp
  | s :: ss, vs, h => by
    simp only [Context.localsOfAll, bind_eq_ok, pure_eq_ok] at h
    obtain ⟨first, hf, others, ho, rfl⟩ := h
    simp only [List.mem_append]
    intro v hv
    rcases hv with hv | hv
    · exact Context.locals_le hc hf v hv
    · exact Context.localsOfAll_le hc ho v hv

end

end Emission

end ScriptAssembly
