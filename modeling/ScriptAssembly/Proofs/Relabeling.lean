import ScriptAssembly.Proofs.DebugInfo
/-
Label numbers are only names.

Emission asks a label table for numbers and compares numbers, and does nothing
else with them. So if the labels of a draft are given other numbers, and
different ones where they were different, the label table of the new draft has
under a new number what the old one has under the old (`LabelTable.Matches`).
Phase by phase the outcome is then the same, and where a phase fails, it fails
with the same fault; only a label that is named in the fault has its new number
(`Relabeled`).
-/
namespace ScriptAssembly

/-! ## New numbers for labels -/

namespace Draft

variable (number : UInt32 → UInt32)

def Label.relabel (l : Label) : Label := ⟨number l.number⟩

def Operand.relabel : Operand → Operand
  | .label l => .label (l.relabel number)
  | x => x

def Instruction.relabel (i : Instruction) : Instruction := { i with operands := i.operands.map (·.relabel number) }

def Node.relabel : Node → Node
  | .label l => .label (l.relabel number)
  | .instruction i => .instruction (i.relabel number)

def CatchTable.relabel (t : CatchTable) : CatchTable :=
  ⟨t.tryBegin.relabel number, t.tryEnd.relabel number, t.handler.relabel number⟩

mutual

def Scope.relabel : Scope → Scope
  | ⟨start, stop, declared, children⟩ =>
    ⟨start.relabel number, stop.relabel number, declared, relabelAll children⟩

def relabelAll : List Scope → List Scope
  | [] => []
  | s :: ss => s.relabel :: relabelAll ss

end

/-- Drafts that differ in the numbers of their labels alone, and perhaps in the numbers to be given out next. -/
structure Relabels (d d' : Draft) : Prop where
  name : d'.name = d.name
  kind : d'.kind = d.kind
  parameterCount : d'.parameterCount = d.parameterCount
  source : d'.source = d.source
  nodes : d'.nodes.toList = d.nodes.toList.map (·.relabel number)
  catchTables : d'.catchTables.toList = d.catchTables.toList.map (·.relabel number)
  scope : d'.scope = d.scope.map (·.relabel number)
  buffers : d'.buffers = d.buffers

/-- The label of an operand, if it is one. -/
def Operand.label? : Operand → Option Label
  | .label l => some l
  | _ => none

def Node.labels : Node → List Label
  | .label l => [l]
  | .instruction i => i.operands.filterMap Operand.label?

def CatchTable.labels (t : CatchTable) : List Label := [t.tryBegin, t.tryEnd, t.handler]

/-- All labels of a draft, placed or used. -/
def labels (d : Draft) : List Label :=
  d.nodes.toList.flatMap Node.labels ++ (d.catchTables.toList.flatMap CatchTable.labels ++ d.scopeLabels)

/-- Labels that are different have different new numbers. -/
def KeepsApart (labels : List Label) : Prop :=
  ∀ l ∈ labels, ∀ l' ∈ labels, number l.number = number l'.number → l = l'

instance (labels : List Label) : Decidable (KeepsApart number labels) := inferInstanceAs (Decidable (∀ _ ∈ _, _))

end Draft

namespace Emission

variable (number : UInt32 → UInt32)

/-- A fault with the new number of the label that it names. -/
def Fault.relabel : Fault → Fault
  | .unboundLabel l => .unboundLabel (l.relabel number)
  | f => f

end Emission

def EmissionError.relabel (number : UInt32 → UInt32) (e : EmissionError) : EmissionError :=
  { e with fault := e.fault.relabel number }

namespace Emission

/-! ## Outcomes up to labels -/

/-- The same outcome, up to the number of a label in a fault. -/
def Relabeled {α : Type} (number : UInt32 → UInt32) (x x' : Except Fault α) : Prop :=
  x' = x.mapError (Fault.relabel number)

namespace Relabeled

variable {α β : Type} {number : UInt32 → UInt32} {x x' : Except Fault α}

theorem ok (a : α) : Relabeled number (.ok a) (.ok a) := rfl

/-- An outcome in which no fault names a label. -/
theorem refl (h : ∀ l, x ≠ .error (.unboundLabel l)) : Relabeled number x x := by
  cases x with
  | ok a => rfl
  | error f =>
    cases f with
    | unboundLabel l => exact absurd rfl (h l)
    | duplicateBuffer | unknownBuffer | operandCount | operandKind => rfl

theorem bind {f f' : α → Except Fault β} (hx : Relabeled number x x')
    (hf : ∀ a, x = .ok a → Relabeled number (f a) (f' a)) : Relabeled number (x >>= f) (x' >>= f') := by
  unfold Relabeled at hx
  subst hx
  cases x with
  | ok a => exact hf a rfl
  | error e => rfl

theorem bind_pure (hx : Relabeled number x x') (g : α → β) :
    Relabeled number (x >>= fun a => pure (g a)) (x' >>= fun a => pure (g a)) :=
  hx.bind fun a _ => ok (g a)

theorem mapM {γ : Type} {f : γ → Except Fault β} {f' : γ → Except Fault β} {g : γ → γ} {xs : List γ}
    (h : ∀ a ∈ xs, Relabeled number (f a) (f' (g a))) : Relabeled number (xs.mapM f) ((xs.map g).mapM f') := by
  induction xs with
  | nil => exact ok []
  | cons a xs ih =>
    rw [List.map_cons, List.mapM_cons, List.mapM_cons]
    refine (h a List.mem_cons_self).bind fun b _ => ?_
    exact (ih fun a' ha' => h a' (List.mem_cons_of_mem a ha')).bind_pure (b :: ·)

end Relabeled

/-! ## Label tables -/

variable {number : UInt32 → UInt32} {labels : List Draft.Label} {t t' : LabelTable}

/-- A table that has under the new numbers what another has under the old ones. -/
def LabelTable.Matches (number : UInt32 → UInt32) (labels : List Draft.Label) (t t' : LabelTable) : Prop :=
  ∀ l ∈ labels, t'.offsets[number l.number]? = t.offsets[l.number]?

theorem LabelTable.Matches.insert (h : Matches number labels t t') (hn : Draft.KeepsApart number labels)
    {placed : Draft.Label} (hplaced : placed ∈ labels) (n : Nat) :
    Matches number labels ⟨t.offsets.insert placed.number n⟩ ⟨t'.offsets.insert (number placed.number) n⟩ := by
  intro l hl
  simp only [Std.ExtTreeMap.getElem?_insert, Std.LawfulEqCmp.compare_eq_iff_eq]
  by_cases heq : placed = l
  · subst heq
    simp
  · have hnew : ¬ number placed.number = number l.number := fun hsame => heq (hn placed hplaced l hl hsame)
    have hold : ¬ placed.number = l.number := fun hsame => hnew (congrArg number hsame)
    rw [if_neg hnew, if_neg hold]
    exact h l hl

/-- The placements of the nodes keep tables matched. -/
theorem LabelTable.Matches.extend (hn : Draft.KeepsApart number labels) {nodes : List Draft.Node}
    (hnodes : ∀ node ∈ nodes, ∀ l ∈ node.labels, l ∈ labels) (n : Nat) (h : Matches number labels t t') :
    Matches number labels (t.extend n nodes) (t'.extend n (nodes.map (·.relabel number))) := by
  induction nodes generalizing t t' n with
  | nil => exact h
  | cons node nodes ih =>
    have hrest : ∀ node ∈ nodes, ∀ l ∈ node.labels, l ∈ labels := fun node' hnode' =>
      hnodes node' (List.mem_cons_of_mem node hnode')
    cases node with
    | label placed =>
      have hplaced : placed ∈ labels := hnodes _ List.mem_cons_self placed (by simp [Draft.Node.labels])
      exact ih hrest n (h.insert hn hplaced n)
    | instruction i => exact ih hrest (n + 1) h

theorem LabelTable.Matches.offset (h : Matches number labels t t') {l : Draft.Label} (hl : l ∈ labels) :
    Relabeled number (t.offset l) (t'.offset (l.relabel number)) := by
  have hsame : t'.offsets[(l.relabel number).number]? = t.offsets[l.number]? := h l hl
  unfold LabelTable.offset
  rw [hsame]
  cases t.offsets[l.number]? <;> rfl

/-! ## Instructions -/

theorem kind_relabel (x : Draft.Operand) : (x.relabel number).kind = x.kind := by
  cases x <;> rfl

/-- Of an operand only its kind is checked, so labels are checked alike. -/
theorem checkOperands_relabel (i : Draft.Instruction) : checkOperands (i.relabel number) = checkOperands i := by
  have hfind : ((i.opcode.layout.zip (i.operands.map (·.relabel number))).zipIdx.find? fun s => s.1.2.kind != s.1.1) =
      ((i.opcode.layout.zip i.operands).zipIdx.find? fun s => s.1.2.kind != s.1.1).map
        (Prod.map (Prod.map id (·.relabel number)) id) := by
    rw [List.zip_map_right, List.zipIdx_map, List.find?_map]
    simp only [Function.comp_def, Prod.map_fst, Prod.map_snd, id_eq, kind_relabel]
  unfold checkOperands
  simp only [Draft.Instruction.relabel, List.length_map, hfind]
  split
  · rfl
  · cases (i.opcode.layout.zip i.operands).zipIdx.find? fun s => s.1.2.kind != s.1.1 with
    | none => rfl
    | some s => simp only [Option.map_some, Prod.map, kind_relabel, id_eq]

theorem checkOperands_ne_unboundLabel (i : Draft.Instruction) (l : Draft.Label) :
    checkOperands i ≠ .error (.unboundLabel l) := by
  unfold checkOperands
  dsimp only
  split
  · simp
  · split <;> simp

theorem bufferIds_ne_unboundLabel (bs : List Draft.LiteralBuffer) (l : Draft.Label) :
    bufferIds bs ≠ .error (.unboundLabel l) := by
  intro herror
  have hhead := (bufferIds_reports bs).error_iff.mp herror
  rw [List.head?_map, Option.map_eq_some_iff] at hhead
  obtain ⟨id, -, hid⟩ := hhead
  cases hid

section Phases

variable {c c' : Context}

/-- Contexts that differ in the numbers of labels alone. -/
structure Context.Matches (number : UInt32 → UInt32) (labels : List Draft.Label) (c c' : Context) : Prop where
  function : c'.function = c.function
  labels : c.labels.Matches number labels c'.labels
  buffers : c'.buffers = c.buffers
  lines : c'.lines = c.lines

namespace Context.Matches

theorem operand (h : c.Matches number labels c') {x : Draft.Operand} (hx : ∀ l, x.label? = some l → l ∈ labels) :
    Relabeled number (c.operand x) (c'.operand (x.relabel number)) := by
  cases x with
  | label l => exact (h.labels.offset (hx l rfl)).bind_pure _
  | buffer id =>
    simp only [Draft.Operand.relabel, Context.operand, h.buffers, h.function]
    split <;> rfl
  | register | immediate | double | string | function => exact .ok _

theorem instruction (h : c.Matches number labels c') {i : Draft.Instruction}
    (hi : ∀ l ∈ i.operands.filterMap Draft.Operand.label?, l ∈ labels) :
    Relabeled number (c.instruction i) (c'.instruction (i.relabel number)) := by
  unfold Context.instruction
  rw [checkOperands_relabel]
  have hposition : c'.position (i.relabel number) = c.position i := by
    unfold Context.position
    rw [h.lines]
    rfl
  rw [hposition]
  refine (Relabeled.refl (checkOperands_ne_unboundLabel i)).bind fun _ _ => ?_
  refine (Relabeled.mapM fun x hx => h.operand fun l hl => ?_).bind_pure _
  exact hi l (List.mem_filterMap.mpr ⟨x, hx, hl⟩)

theorem catchBlock (h : c.Matches number labels c') {t : Draft.CatchTable} (ht : ∀ l ∈ t.labels, l ∈ labels) :
    Relabeled number (c.catchBlock t) (c'.catchBlock (t.relabel number)) := by
  simp only [Draft.CatchTable.labels, List.forall_mem_cons] at ht
  obtain ⟨hbegin, hend, hhandler, -⟩ := ht
  refine (h.labels.offset hbegin).bind fun _ _ => ?_
  refine (h.labels.offset hend).bind fun _ _ => ?_
  exact (h.labels.offset hhandler).bind_pure _

mutual

theorem locals (h : c.Matches number labels c') : ∀ s : Draft.Scope,
    (∀ s' ∈ s.preorder, s'.start ∈ labels ∧ s'.stop ∈ labels) →
    Relabeled number (c.locals s) (c'.locals (s.relabel number))
  | ⟨start, stop, declared, children⟩, hs => by
    rw [Draft.Scope.preorder, List.forall_mem_cons] at hs
    obtain ⟨⟨hstart, hstop⟩, hchildren⟩ := hs
    rw [Draft.Scope.relabel, Context.locals, Context.locals]
    refine (h.labels.offset hstart).bind fun _ _ => ?_
    refine (h.labels.offset hstop).bind fun _ _ => ?_
    exact (localsOfAll h children hchildren).bind_pure _

theorem localsOfAll (h : c.Matches number labels c') : ∀ ss : List Draft.Scope,
    (∀ s' ∈ Draft.preorderOfAll ss, s'.start ∈ labels ∧ s'.stop ∈ labels) →
    Relabeled number (c.localsOfAll ss) (c'.localsOfAll (Draft.relabelAll number ss))
  | [], _ => .ok []
  | s :: ss, hs => by
    rw [Draft.preorderOfAll, List.forall_mem_append] at hs
    rw [Draft.relabelAll, Context.localsOfAll, Context.localsOfAll]
    refine (locals h s hs.1).bind fun _ _ => ?_
    exact (localsOfAll h ss hs.2).bind_pure _

end

end Context.Matches

end Phases

/-! ## Drafts -/

variable {d d' : Draft}

theorem instructions_relabel (nodes : List Draft.Node) :
    (nodes.map (·.relabel number)).filterMap Draft.Node.instruction? =
      (nodes.filterMap Draft.Node.instruction?).map (·.relabel number) := by
  induction nodes with
  | nil => rfl
  | cons node nodes ih =>
    cases node with
    | label placed => exact ih
    | instruction i => exact congrArg (i.relabel number :: ·) ih

theorem mem_labels_of_node {node : Draft.Node} (hnode : node ∈ d.nodes.toList) {l : Draft.Label}
    (hl : l ∈ node.labels) : l ∈ d.labels :=
  List.mem_append_left _ (List.mem_flatMap.mpr ⟨node, hnode, hl⟩)

theorem mem_labels_of_instruction {i : Draft.Instruction} (hi : i ∈ d.instructions) {l : Draft.Label}
    (hl : l ∈ i.operands.filterMap Draft.Operand.label?) : l ∈ d.labels := by
  obtain ⟨node, hnode, hsome⟩ := List.mem_filterMap.mp hi
  cases node with
  | label placed => cases hsome
  | instruction i' =>
    cases hsome
    exact mem_labels_of_node hnode hl

theorem mem_labels_of_catchTable {t : Draft.CatchTable} (ht : t ∈ d.catchTables.toList) {l : Draft.Label}
    (hl : l ∈ t.labels) : l ∈ d.labels :=
  List.mem_append_right _ (List.mem_append_left _ (List.mem_flatMap.mpr ⟨t, ht, hl⟩))

theorem mem_labels_of_scope {s : Draft.Scope} (hs : s ∈ d.scopes) : s.start ∈ d.labels ∧ s.stop ∈ d.labels := by
  have hmem : ∀ l ∈ [s.start, s.stop], l ∈ d.labels := fun l hl =>
    List.mem_append_right _ (List.mem_append_right _ (List.mem_flatMap.mpr ⟨s, hs, hl⟩))
  exact ⟨hmem s.start (by simp), hmem s.stop (by simp)⟩

theorem matches_contextOf (h : d.Relabels number d') (hn : Draft.KeepsApart number d.labels) (debug : Bool)
    (ids : Std.ExtTreeSet UInt32) : (contextOf debug d ids).Matches number d.labels (contextOf debug d' ids) where
  function := h.name
  labels := by
    have hempty : LabelTable.Matches number d.labels ⟨∅⟩ ⟨∅⟩ := fun l _ => by simp
    have hextend := hempty.extend hn (fun node hnode l => mem_labels_of_node hnode) 0
    rw [← h.nodes] at hextend
    exact hextend
  buffers := rfl
  lines := by
    simp only [contextOf, h.source]

theorem ofDraft_relabel (h : d.Relabels number d') (hn : Draft.KeepsApart number d.labels) (debug : Bool) :
    Relabeled number (ofDraft debug d) (ofDraft debug d') := by
  have hinstructions : d'.instructions = d.instructions.map (·.relabel number) := by
    rw [Draft.instructions, h.nodes, instructions_relabel, Draft.instructions]
  have hscope : d'.scope.toList = Draft.relabelAll number d.scope.toList := by
    rw [h.scope]
    cases d.scope <;> rfl
  have hsource : sourceInfo d' = sourceInfo d := by
    unfold sourceInfo
    rw [h.source, h.kind]
  unfold ofDraft
  rw [hinstructions, hscope, hsource, h.catchTables, h.buffers]
  refine (Relabeled.refl (bufferIds_ne_unboundLabel _)).bind fun ids _ => ?_
  have hc := matches_contextOf h hn debug ids
  refine (Relabeled.mapM fun i hi => hc.instruction fun l => mem_labels_of_instruction hi).bind fun instructions _ => ?_
  refine (Relabeled.mapM fun t ht => hc.catchBlock fun l => mem_labels_of_catchTable ht).bind fun catchBlocks _ => ?_
  cases debug with
  | true =>
    refine (hc.localsOfAll d.scope.toList fun s => mem_labels_of_scope).bind fun locals _ => ?_
    rw [h.name, h.kind, h.parameterCount]
    exact .ok _
  | false =>
    rw [h.name, h.kind, h.parameterCount]
    exact .ok _

end Emission

/-- **Label numbers are only names.** A draft whose labels have other numbers is emitted to the same function, and if
it cannot be emitted, that is for the same fault with the new number of the label. -/
theorem Draft.Relabels.emit_eq {number : UInt32 → UInt32} {d d' : Draft} (h : d.Relabels number d')
    (hn : Draft.KeepsApart number d.labels) (debug : Bool) :
    d'.emit debug = (d.emit debug).mapError (EmissionError.relabel number) := by
  have hsame := Emission.ofDraft_relabel h hn debug
  unfold Emission.Relabeled at hsame
  rw [Draft.emit, Draft.emit, hsame, h.name]
  cases Emission.ofDraft debug d <;> rfl

/-- A loop between two labels with a handler behind it, and a scope that ends at the given label. -/
def Draft.numbered (head exit handler stop : UInt32) : Draft where
  name := "f"
  kind := .plain
  parameterCount := 0
  source := ⟨"m.js", "a"⟩
  nodes := #[.label ⟨head⟩, .instruction ⟨.jeqz, [.label ⟨exit⟩], some ⟨0, 1⟩⟩,
    .instruction ⟨.jmp, [.label ⟨head⟩], none⟩, .label ⟨exit⟩, .label ⟨handler⟩,
    .instruction ⟨.returnUndefined, [], none⟩]
  catchTables := #[⟨⟨head⟩, ⟨exit⟩, ⟨handler⟩⟩]
  scope := some ⟨⟨head⟩, ⟨stop⟩, [⟨"x", 0⟩], []⟩

/-- Labels numbered the other way round, once with a scope that ends and once with one that does not. -/
theorem Draft.Relabels.emit_eq_backwards :
    (∃ e, (numbered 0 1 2 1).emit true = .ok e ∧ (numbered 9 8 7 8).emit true = .ok e) ∧
    (numbered 0 1 2 5).emit true = .error ⟨"f", .unboundLabel ⟨5⟩⟩ ∧
    (numbered 9 8 7 4).emit true = .error ⟨"f", .unboundLabel ⟨4⟩⟩ := by
  have hrelabels : (numbered 0 1 2 1).Relabels (9 - ·) (numbered 9 8 7 8) := ⟨rfl, rfl, rfl, rfl, rfl, rfl, rfl, rfl⟩
  have hrelabels' : (numbered 0 1 2 5).Relabels (9 - ·) (numbered 9 8 7 4) := ⟨rfl, rfl, rfl, rfl, rfl, rfl, rfl, rfl⟩
  have hbound := emit_eq hrelabels (by decide) true
  have hunbound := emit_eq hrelabels' (by decide) true
  obtain ⟨e, he⟩ := (emit_reports true (numbered 0 1 2 1)).ok_iff.mpr (by decide)
  have herror : (numbered 0 1 2 5).emit true = .error ⟨"f", .unboundLabel ⟨5⟩⟩ :=
    (emit_reports true (numbered 0 1 2 5)).error_iff.mpr (by decide)
  rw [he] at hbound
  rw [herror] at hunbound
  exact ⟨⟨e, he, hbound⟩, herror, hunbound⟩

end ScriptAssembly
