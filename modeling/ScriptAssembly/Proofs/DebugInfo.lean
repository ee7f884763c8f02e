import ScriptAssembly.Proofs.Faults
/-
Debug information has no part in the code.

An emission without its debug information is the one that is made when none is
asked for (`emit_bare`), and that one is made of the code of a draft alone
(`ofDraft_eq_of_sameCode`). So two drafts of the same code are emitted
alike, whatever is asked for. Their faults are those of the code too; only the
labels of scopes, which are looked at last, may be missing in addition.
-/
namespace ScriptAssembly

namespace Draft

/-- An instruction that does not tell what it was selected for. -/
def Instruction.bare (i : Instruction) : Instruction := { i with span := none }

def Node.bare : Node → Node
  | .label l => .label l
  | .instruction i => .instruction i.bare

/-- Drafts that differ in debug data alone: in ranges of the source, in scopes, and in the source itself. -/
structure SameCode (d d' : Draft) : Prop where
  name : d.name = d'.name
  kind : d.kind = d'.kind
  parameterCount : d.parameterCount = d'.parameterCount
  nodes : d.nodes.toList.map Node.bare = d'.nodes.toList.map Node.bare
  catchTables : d.catchTables = d'.catchTables
  buffers : d.buffers = d'.buffers

/-- The labels of all scopes, from the outside in. -/
def scopeLabels (d : Draft) : List Label := d.scopes.flatMap fun s => [s.start, s.stop]

end Draft

namespace Emission

/-- An emission without debug information. -/
def bare (e : Emission) : Emission :=
  { e with
    function := { e.function with
      instructions := e.function.instructions.map fun i => { i with position := none }
      locals := []
      source := none } }

variable {debug : Bool} {d d' : Draft} {ids : Std.ExtTreeSet UInt32} {e : Emission}

/-! ## The code of an emission -/

theorem Context.instruction_bare {i : Draft.Instruction} {j : Function.Instruction}
    (h : (contextOf debug d ids).instruction i = .ok j) :
    (contextOf false d ids).instruction i = .ok { j with position := none } := by
  have hoperand : (contextOf debug d ids).operand = (contextOf false d ids).operand := by
    funext x
    cases x <;> rfl
  simp only [Context.instruction, bind_eq_ok, pure_eq_ok, hoperand] at h ⊢
  obtain ⟨u, hu, operands, ho, rfl⟩ := h
  exact ⟨u, hu, operands, ho, rfl⟩

/-- Without its debug information, an emission is one for which none was asked. -/
theorem FromDraft.bare (h : FromDraft debug d ids e) : FromDraft false d ids e.bare where
  distinct := h.distinct
  name := h.name
  kind := h.kind
  parameterCount := h.parameterCount
  instructions := List.forall₂_map_right_iff.mpr (h.instructions.imp fun _ _ => Context.instruction_bare)
  catchBlocks := h.catchBlocks
  locals := rfl
  source := rfl
  buffers := h.buffers
  strings := by
    simp only [Emission.bare, h.strings, collectStrings, List.flatMap_map]

theorem emit_bare (h : d.emit debug = .ok e) : d.emit false = .ok e.bare := by
  obtain ⟨ids, hd⟩ := fromDraft_of_emit h
  exact mapError_eq_ok.mpr (ofDraft_eq_ok.mpr ⟨ids, hd.bare⟩)

theorem bare_eq_of_emit (h : d.emit false = .ok e) : e.bare = e :=
  Except.ok.inj ((emit_bare h).symm.trans h)

/-! ## Drafts of the same code -/

theorem LabelTable.extend_bare (t : LabelTable) (n : Nat) (nodes : List Draft.Node) :
    t.extend n (nodes.map Draft.Node.bare) = t.extend n nodes := by
  induction nodes generalizing t n with
  | nil => rfl
  | cons node nodes ih => cases node <;> simp only [List.map_cons, Draft.Node.bare, extend, ih]

theorem instructions_bare (nodes : List Draft.Node) :
    (nodes.map Draft.Node.bare).filterMap Draft.Node.instruction? =
      (nodes.filterMap Draft.Node.instruction?).map Draft.Instruction.bare := by
  induction nodes with
  | nil => rfl
  | cons node nodes ih => cases node <;> simp [List.filterMap_cons, Draft.Node.bare, Draft.Node.instruction?, ih]

theorem Context.instruction_of_bare {c : Context} (hc : c.lines = none) (i : Draft.Instruction) :
    c.instruction i.bare = c.instruction i := by
  have hposition : ∀ i, c.position i = none := by
    intro i
    rw [Context.position, hc]
    rfl
  simp only [Context.instruction, hposition]
  rfl

theorem ofDraft_eq_of_sameCode (h : Draft.SameCode d d') : ofDraft false d = ofDraft false d' := by
  have hlabels : LabelTable.ofNodes d.nodes.toList = .ofNodes d'.nodes.toList := by
    rw [LabelTable.ofNodes, ← LabelTable.extend_bare, h.nodes, LabelTable.extend_bare, LabelTable.ofNodes]
  have hbare : d.instructions.map Draft.Instruction.bare = d'.instructions.map Draft.Instruction.bare := by
    rw [Draft.instructions, ← instructions_bare, h.nodes, instructions_bare, Draft.instructions]
  -- Without a line table nobody asks an instruction for its range.
  have hinstructions : ∀ c : Context, c.lines = none →
      d.instructions.mapM c.instruction = d'.instructions.mapM c.instruction := by
    intro c hc
    have hcomp : c.instruction ∘ Draft.Instruction.bare = c.instruction := funext (Context.instruction_of_bare hc)
    rw [← hcomp, ← List.mapM_map, hbare, List.mapM_map]
  simp only [ofDraft, h.name, h.kind, h.parameterCount, h.catchTables, h.buffers, hlabels, Bool.false_eq_true,
    if_false]
  congr 1
  funext ids
  rw [hinstructions _ rfl]

/-! ## Faults of debug information -/

theorem scopeFaults_eq (d : Draft) : d.scopes.flatMap (scopeFaults d) =
    (d.scopeLabels.filter fun l => ¬ d.Places l).map .unboundLabel := by
  have hlabels : ∀ labels : List Draft.Label, labels.flatMap (labelFaults d) =
      (labels.filter fun l => ¬ d.Places l).map .unboundLabel := by
    intro labels
    induction labels with
    | nil => rfl
    | cons l labels ih =>
      rw [List.flatMap_cons, ih, labelFaults]
      by_cases hl : d.Places l <;> simp [hl]
  rw [← hlabels, Draft.scopeLabels, List.flatMap_assoc]
  refine List.flatMap_congr fun s _ => ?_
  simp [scopeFaults]

/-- The labels of scopes are looked at last. -/
theorem faults_true (d : Draft) :
    faults true d = faults false d ++ (d.scopeLabels.filter fun l => ¬ d.Places l).map .unboundLabel := by
  simp [faults, scopeFaults_eq]

end Emission

/-- **Debug data never has an influence on the code.** -/
theorem Draft.SameCode.emit_agree {d d' : Draft} (h : d.SameCode d') :
    (∀ debug debug' e e', d.emit debug = .ok e → d'.emit debug' = .ok e' → e.bare = e'.bare) ∧
    d.emit false = d'.emit false ∧
    (∀ e, d.emit false = .ok e →
      (∀ i ∈ e.function.instructions, i.position = none) ∧ e.function.locals = [] ∧ e.function.source = none) ∧
    ∀ error, d.emit true = .error error ↔
      d'.emit false = .error error ∨
      (∃ e, d'.emit false = .ok e) ∧
        ∃ l, (d.scopeLabels.find? fun l => ¬ d.Places l) = some l ∧ error = ⟨d.name, .unboundLabel l⟩ := by
  have hsame : d.emit false = d'.emit false := by
    rw [Draft.emit, Draft.emit, Emission.ofDraft_eq_of_sameCode h, h.name]
  refine ⟨fun debug debug' e e' he he' => ?_, hsame, fun e he => ?_, fun error => ?_⟩
  · -- Without their debug information, both are what the one code is emitted to.
    have hbare := Emission.emit_bare he
    rw [hsame, Emission.emit_bare he'] at hbare
    exact (Except.ok.inj hbare).symm
  · rw [← Emission.bare_eq_of_emit he]
    refine ⟨fun i hi => ?_, rfl, rfl⟩
    obtain ⟨j, -, rfl⟩ := List.mem_map.mp hi
    rfl
  · have htrue := Draft.emit_reports true d
    rw [Emission.faults_true, List.map_append] at htrue
    rw [(Draft.emit_reports false d).error_iff_of_append htrue, ← hsame, List.map_map, List.head?_map,
      List.head?_filter, Option.map_eq_some_iff]
    simp only [Function.comp_apply, eq_comm (a := error)]

/-- A function that returns at once, with a scope up to the given label. -/
def Draft.traced (stop : UInt32) : Draft where
  name := "f"
  kind := .moduleEntry
  parameterCount := 0
  source := ⟨"m.js", "return"⟩
  nodes := #[.label ⟨0⟩, .instruction ⟨.returnUndefined, [], some ⟨0, 6⟩⟩, .label ⟨1⟩]
  scope := some ⟨⟨0⟩, ⟨stop⟩, [⟨"x", 0⟩], []⟩

/-- The same function, of which nothing is known but the code. -/
def Draft.untraced : Draft where
  name := "f"
  kind := .moduleEntry
  parameterCount := 0
  source := ⟨"", ""⟩
  nodes := #[.label ⟨0⟩, .instruction ⟨.returnUndefined, [], none⟩, .label ⟨1⟩]

/-- A scope that ends where it should, and a scope that never ends. -/
theorem Draft.SameCode.emit_agree_traced :
    (∃ e e', (traced 1).emit true = .ok e ∧ untraced.emit false = .ok e' ∧ e.bare = e'.bare) ∧
    (traced 2).emit false = untraced.emit false ∧
    (traced 2).emit true = .error ⟨"f", .unboundLabel ⟨2⟩⟩ := by
  have hsame : ∀ stop, (traced stop).SameCode untraced := fun stop => ⟨rfl, rfl, rfl, rfl, rfl, rfl⟩
  obtain ⟨e, he⟩ := (emit_reports true (traced 1)).ok_iff.mpr (by decide)
  obtain ⟨e', he'⟩ := (emit_reports false untraced).ok_iff.mpr (by decide)
  have hcode := (emit_agree (hsame 1)).1 true false e e' he he'
  obtain ⟨-, hrelease, -, hdebug⟩ := emit_agree (hsame 2)
  refine ⟨⟨e, e', he, he', hcode⟩, hrelease, (hdebug _).mpr (.inr ⟨⟨e', he'⟩, ⟨2⟩, ?_, rfl⟩)⟩
  decide

end ScriptAssembly
