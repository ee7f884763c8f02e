import ScriptAssembly.Emission.InPlace
import ScriptAssembly.Proofs.Emission
/-
An emitter at work makes the emission of the draft.

`Carries` puts a computation in place beside a part of emission: where that
part succeeds, so does the computation, and what it has made of the emitter is
said by a relation to the outcome; where it fails, the computation fails with
the same fault. Phase by phase the outcome of a part is what is added to the
emitter's tables, and nothing that is looked at later is changed again. Only
the strings come from two phases, those of buffers first; but they are a set,
and so it is one and the same whichever come first (`emit_carries`).
-/
namespace ScriptAssembly.Emission

/-! ## Computations side by side -/

/-- From `s` on, a computation in place carries out what another one decides, and ends as related. -/
def Carries {α β : Type} (s : Emitter) (p : InPlace α) (x : Except Fault β) (after : β → α → Emitter → Prop) : Prop :=
  match x with
  | .ok b => ∃ a s', p.run s = .ok a s' ∧ after b a s'
  | .error f => ∃ s', p.run s = .error f s'

namespace Carries

variable {α β γ δ : Type} {s : Emitter} {p : InPlace α} {x : Except Fault β} {after : β → α → Emitter → Prop}

theorem ok {a : α} {b : β} {s' : Emitter} (hp : p.run s = .ok a s') (h : after b a s') : Carries s p (.ok b) after :=
  ⟨a, s', hp, h⟩

theorem throw (f : Fault) : Carries s (MonadExcept.throw f : InPlace α) (.error f) after := ⟨s, rfl⟩

/-- What an emitter does in between. -/
theorem step {q : γ → InPlace α} {r : InPlace γ} {c : γ} {s' : Emitter} (hr : r.run s = .ok c s')
    (h : Carries s' (q c) x after) : Carries s (r >>= q) x after := by
  have hrun : (r >>= q).run s = (q c).run s' := by rw [EStateM.run_bind, hr]
  unfold Carries
  rw [hrun]
  exact h

theorem bind {q : α → InPlace γ} {y : β → Except Fault δ} {last : δ → γ → Emitter → Prop} (hp : Carries s p x after)
    (hq : ∀ b a s', after b a s' → Carries s' (q a) (y b) last) : Carries s (p >>= q) (x >>= y) last := by
  unfold Carries
  cases x with
  | ok b =>
    obtain ⟨a, s', hrun, ha⟩ := hp
    rw [EStateM.run_bind, hrun]
    exact hq b a s' ha
  | error f =>
    obtain ⟨s', hrun⟩ := hp
    exact ⟨s', by rw [EStateM.run_bind, hrun]⟩

/-- What is made of the outcome in the end is nothing to the emitter. -/
theorem map {y : β → δ} {last : δ → α → Emitter → Prop} (hp : Carries s p x after)
    (hy : ∀ b a s', after b a s' → last (y b) a s') : Carries s p (x >>= fun b => pure (y b)) last := by
  cases x with
  | ok b =>
    obtain ⟨a, s', hrun, ha⟩ := hp
    exact ⟨a, s', hrun, hy b a s' ha⟩
  | error f => exact hp

/-- A computation that looks nothing up and changes nothing. -/
theorem ofExcept (x : Except Fault α) : Carries s (MonadExcept.ofExcept x) x fun b a s' => a = b ∧ s' = s := by
  cases x with
  | ok a => exact ⟨a, s, rfl, rfl, rfl⟩
  | error f => exact ⟨s, rfl⟩

end Carries

/-! ## What a phase adds -/

namespace Emitter

variable (s : Emitter)

def addStrings (strings : List String) : Emitter :=
  { s with emission := { s.emission with strings := s.emission.strings.insertMany strings } }

/-- The emitter with buffers stored, whose ids make up the given ones. -/
def addBuffers (ids : Std.ExtTreeSet UInt32) (bs : List Draft.LiteralBuffer) : Emitter :=
  { s with
    ids
    emission := { s.emission with
      buffers := s.emission.buffers ++ bs
      strings := s.emission.strings.insertMany (bs.flatMap fun b => Literal.strings b.literals) } }

def addInstructions (is : List Function.Instruction) : Emitter :=
  { s with emission :=
    { s.emission with
      function := { s.emission.function with instructions := s.emission.function.instructions ++ is }
      strings := s.emission.strings.insertMany
        (is.flatMap fun i => i.operands.filterMap Function.Operand.string?) } }

def addCatchBlocks (bs : List Function.CatchBlock) : Emitter :=
  { s with emission :=
    { s.emission with function := { s.emission.function with catchBlocks := s.emission.function.catchBlocks ++ bs } } }

def addLocals (vs : List Function.LocalVariable) : Emitter :=
  { s with emission :=
    { s.emission with function := { s.emission.function with locals := s.emission.function.locals ++ vs } } }

@[simp]
theorem addStrings_nil : s.addStrings [] = s := by
  rw [addStrings, Std.ExtTreeSet.insertMany_nil]

@[simp]
theorem addStrings_addStrings (as bs : List String) : (s.addStrings as).addStrings bs = s.addStrings (as ++ bs) := by
  simp only [addStrings, Std.ExtTreeSet.insertMany_append]

@[simp]
theorem addBuffers_addBuffers (ids ids' : Std.ExtTreeSet UInt32) (as bs : List Draft.LiteralBuffer) :
    (s.addBuffers ids as).addBuffers ids' bs = s.addBuffers ids' (as ++ bs) := by
  simp only [addBuffers, List.append_assoc, List.flatMap_append, Std.ExtTreeSet.insertMany_append]

@[simp]
theorem addInstructions_nil : s.addInstructions [] = s := by
  simp only [addInstructions, List.append_nil, List.flatMap_nil, Std.ExtTreeSet.insertMany_nil]

@[simp]
theorem addInstructions_addInstructions (is js : List Function.Instruction) :
    (s.addInstructions is).addInstructions js = s.addInstructions (is ++ js) := by
  simp only [addInstructions, List.append_assoc, List.flatMap_append, Std.ExtTreeSet.insertMany_append]

@[simp]
theorem addCatchBlocks_nil : s.addCatchBlocks [] = s := by
  rw [addCatchBlocks, List.append_nil]

@[simp]
theorem addCatchBlocks_addCatchBlocks (as bs : List Function.CatchBlock) :
    (s.addCatchBlocks as).addCatchBlocks bs = s.addCatchBlocks (as ++ bs) := by
  simp only [addCatchBlocks, List.append_assoc]

@[simp]
theorem addLocals_nil : s.addLocals [] = s := by
  rw [addLocals, List.append_nil]

@[simp]
theorem addLocals_addLocals (us vs : List Function.LocalVariable) :
    (s.addLocals us).addLocals vs = s.addLocals (us ++ vs) := by
  simp only [addLocals, List.append_assoc]

/-- An emitter looks up what the context has. -/
structure Knows (s : Emitter) (c : Context) : Prop where
  labels : s.labels = c.labels
  ids : s.ids = c.buffers
  function : s.emission.function.name = c.function

variable {s} {c : Context}

theorem Knows.addStrings (h : s.Knows c) (strings : List String) : (s.addStrings strings).Knows c :=
  ⟨h.labels, h.ids, h.function⟩

theorem Knows.addInstructions (h : s.Knows c) (is : List Function.Instruction) : (s.addInstructions is).Knows c :=
  ⟨h.labels, h.ids, h.function⟩

theorem Knows.addCatchBlocks (h : s.Knows c) (bs : List Function.CatchBlock) : (s.addCatchBlocks bs).Knows c :=
  ⟨h.labels, h.ids, h.function⟩

theorem Knows.addLocals (h : s.Knows c) (vs : List Function.LocalVariable) : (s.addLocals vs).Knows c :=
  ⟨h.labels, h.ids, h.function⟩

end Emitter

namespace Carries

/-- A loop adds all that its steps add. -/
theorem forM {α β : Type} {c : Context} {p : α → InPlace Unit} {f : α → Except Fault β}
    {add : Emitter → List β → Emitter} (hnil : ∀ s, add s [] = s)
    (happend : ∀ s as bs, add (add s as) bs = add s (as ++ bs)) (hknows : ∀ s bs, s.Knows c → (add s bs).Knows c)
    (hstep : ∀ s x, s.Knows c → Carries s (p x) (f x) fun b _ s' => s' = add s [b]) (xs : List α) :
    ∀ s, s.Knows c → Carries s (xs.forM p) (xs.mapM f) fun bs _ s' => s' = add s bs := by
  induction xs with
  | nil => exact fun s _ => ok rfl (hnil s).symm
  | cons x xs ih =>
    intro s hs
    rw [List.forM_eq_forM] at ih ⊢
    rw [List.forM_cons, List.mapM_cons]
    refine (hstep s x hs).bind fun b _ s' hs' => ?_
    subst hs'
    refine (ih _ (hknows s [b] hs)).map fun bs _ s' hs' => ?_
    rw [hs', happend, List.singleton_append]

end Carries

/-! ## Labels and buffers -/

namespace InPlace

variable {s : Emitter} {c : Context}

theorem run_placeLabels (s : Emitter) (n : Nat) (nodes : List Draft.Node) :
    (placeLabels n nodes).run s = .ok () { s with labels := s.labels.extend n nodes } := by
  induction nodes generalizing s n with
  | nil => rfl
  | cons node nodes ih =>
    cases node with
    | label l => exact ih { s with labels := ⟨s.labels.offsets.insert l.number n⟩ } n
    | instruction i => exact ih s (n + 1)

theorem run_addString (s : Emitter) (string : String) : (addString string).run s = .ok () (s.addStrings [string]) := by
  rw [Emitter.addStrings, Std.ExtTreeSet.insertMany_list_singleton]
  rfl

theorem run_addStrings (s : Emitter) (strings : List String) :
    (strings.forM addString).run s = .ok () (s.addStrings strings) := by
  induction strings generalizing s with
  | nil => rw [Emitter.addStrings_nil]; rfl
  | cons string strings ih =>
    rw [List.forM_eq_forM] at ih ⊢
    rw [List.forM_cons, EStateM.run_bind, run_addString]
    simp only [ih, Emitter.addStrings_addStrings, List.singleton_append]

theorem storeBuffer_carries (s : Emitter) (b : Draft.LiteralBuffer) :
    Carries s (storeBuffer b) (addId s.ids b) fun ids _ s' => s' = s.addBuffers ids [b] := by
  unfold storeBuffer addId
  refine .step rfl ?_
  split
  · exact .throw _
  · refine .step rfl (.step (run_addStrings _ _) (.ok rfl ?_))
    simp only [Emitter.addStrings, Emitter.addBuffers, List.flatMap_singleton]

theorem storeBuffers_carries (bs : List Draft.LiteralBuffer) (s : Emitter) :
    Carries s (bs.forM storeBuffer) (bs.foldlM addId s.ids) fun ids _ s' => s' = s.addBuffers ids bs := by
  induction bs generalizing s with
  | nil => exact .ok rfl (by simp [Emitter.addBuffers])
  | cons b bs ih =>
    rw [List.forM_eq_forM] at ih ⊢
    rw [List.forM_cons, List.foldlM_cons]
    refine (storeBuffer_carries s b).bind fun ids _ s' hs' => ?_
    subst hs'
    have hrest := ih (s.addBuffers ids [b])
    simp only [Emitter.addBuffers_addBuffers, List.singleton_append] at hrest
    exact hrest

/-! ## Instructions -/

theorem offset_carries (hs : s.Knows c) (l : Draft.Label) :
    Carries s (offset l) (c.labels.offset l) fun n a s' => a = n ∧ s' = s := by
  rw [← hs.labels]
  exact Carries.ofExcept (s := s) (s.labels.offset l)

theorem operand_carries (hs : s.Knows c) (x : Draft.Operand) :
    Carries s (operand x) (c.operand x) fun y a s' => a = y ∧ s' = s.addStrings y.string?.toList := by
  have hsame : s = s.addStrings [] := s.addStrings_nil.symm
  cases x with
  | register | immediate | double | function => exact .ok rfl ⟨rfl, hsame⟩
  | string string =>
    refine .ok (a := .string string) ?_ ⟨rfl, rfl⟩
    rw [operand, EStateM.run_bind, run_addString]
    rfl
  | buffer id =>
    simp only [operand, Context.operand, ← hs.ids, ← hs.function]
    refine .step rfl ?_
    split
    · exact .ok rfl ⟨rfl, hsame⟩
    · exact .throw _
  | label l =>
    refine (offset_carries hs l).bind fun n _ s' hn => ?_
    obtain ⟨rfl, rfl⟩ := hn
    exact .ok rfl ⟨rfl, hsame⟩

theorem operands_carries (xs : List Draft.Operand) : ∀ s : Emitter, s.Knows c →
    Carries s (xs.mapM operand) (xs.mapM c.operand)
      fun ys as s' => as = ys ∧ s' = s.addStrings (ys.filterMap Function.Operand.string?) := by
  induction xs with
  | nil => exact fun s _ => .ok rfl ⟨rfl, s.addStrings_nil.symm⟩
  | cons x xs ih =>
    intro s hs
    rw [List.mapM_cons, List.mapM_cons]
    refine (operand_carries hs x).bind fun _ y s' hy => ?_
    obtain ⟨rfl, rfl⟩ := hy
    refine (ih _ (hs.addStrings _)).bind fun ys _ s' hys => ?_
    obtain ⟨rfl, rfl⟩ := hys
    refine .ok rfl ⟨rfl, ?_⟩
    rw [Emitter.addStrings_addStrings, List.filterMap_cons]
    cases y.string? <;> rfl

theorem instruction_carries (hs : s.Knows c) (i : Draft.Instruction) :
    Carries s (instruction c.lines i) (c.instruction i) fun j _ s' => s' = s.addInstructions [j] := by
  refine (Carries.ofExcept (checkOperands i)).bind fun _ _ s' hcheck => ?_
  obtain ⟨-, rfl⟩ := hcheck
  refine (operands_carries i.operands _ hs).bind fun operands _ s' hoperands => ?_
  obtain ⟨rfl, rfl⟩ := hoperands
  refine .ok rfl ?_
  simp only [Emitter.addStrings, Emitter.addInstructions, List.flatMap_singleton]
  rfl

theorem instructions_carries (hs : s.Knows c) (is : List Draft.Instruction) :
    Carries s (is.forM (instruction c.lines)) (is.mapM c.instruction) fun js _ s' => s' = s.addInstructions js :=
  Carries.forM Emitter.addInstructions_nil Emitter.addInstructions_addInstructions
    (fun _ js hs => hs.addInstructions js) (fun _ i hs => instruction_carries hs i) is s hs

/-! ## Catch tables and scopes -/

theorem catchTable_carries (hs : s.Knows c) (t : Draft.CatchTable) :
    Carries s (catchTable t) (c.catchBlock t) fun b _ s' => s' = s.addCatchBlocks [b] := by
  unfold catchTable Context.catchBlock
  refine (offset_carries hs t.tryBegin).bind fun tryBegin _ s' h => ?_
  obtain ⟨rfl, rfl⟩ := h
  refine (offset_carries hs t.tryEnd).bind fun tryEnd _ s' h => ?_
  obtain ⟨rfl, rfl⟩ := h
  refine (offset_carries hs t.handler).bind fun handler _ s' h => ?_
  obtain ⟨rfl, rfl⟩ := h
  exact .ok rfl rfl

theorem catchTables_carries (hs : s.Knows c) (ts : List Draft.CatchTable) :
    Carries s (ts.forM catchTable) (ts.mapM c.catchBlock) fun bs _ s' => s' = s.addCatchBlocks bs :=
  Carries.forM Emitter.addCatchBlocks_nil Emitter.addCatchBlocks_addCatchBlocks
    (fun _ bs hs => hs.addCatchBlocks bs) (fun _ t hs => catchTable_carries hs t) ts s hs

theorem run_pushLocals (start stop : Nat) (declared : List Draft.Variable) (s : Emitter) :
    (declared.forM fun v => pushLocal (localVariable start stop v)).run s =
      .ok () (s.addLocals (declared.map (localVariable start stop))) := by
  induction declared generalizing s with
  | nil => rw [List.map_nil, Emitter.addLocals_nil]; rfl
  | cons v declared ih =>
    have hstep : (pushLocal (localVariable start stop v)).run s =
        .ok () (s.addLocals [localVariable start stop v]) := rfl
    rw [List.forM_eq_forM] at ih ⊢
    rw [List.forM_cons, EStateM.run_bind, hstep]
    simp only [ih, Emitter.addLocals_addLocals, List.map_cons, List.singleton_append]

mutual

theorem scope_carries : ∀ (t : Draft.Scope) (s : Emitter), s.Knows c →
    Carries s (scope t) (c.locals t) fun vs _ s' => s' = s.addLocals vs
  | ⟨start, stop, declared, children⟩, s, hs => by
    rw [scope, Context.locals]
    refine (offset_carries hs start).bind fun m _ s' h => ?_
    obtain ⟨rfl, rfl⟩ := h
    refine (offset_carries hs stop).bind fun n _ s' h => ?_
    obtain ⟨rfl, rfl⟩ := h
    refine .step (run_pushLocals _ _ declared _) ?_
    refine (scopes_carries children _ (hs.addLocals _)).map fun inner _ s' h => ?_
    rw [h, Emitter.addLocals_addLocals]

theorem scopes_carries : ∀ (ts : List Draft.Scope) (s : Emitter), s.Knows c →
    Carries s (scopes ts) (c.localsOfAll ts) fun vs _ s' => s' = s.addLocals vs
  | [], s, _ => .ok (by rw [scopes]; rfl) s.addLocals_nil.symm
  | t :: ts, s, hs => by
    rw [scopes, Context.localsOfAll]
    refine (scope_carries t s hs).bind fun vs _ s' h => ?_
    subst h
    refine (scopes_carries ts _ (hs.addLocals vs)).map fun others _ s' h => ?_
    rw [h, Emitter.addLocals_addLocals]

end

/-! ## Drafts -/

/-- The strings of an emission, in the order in which an emitter comes by them. -/
theorem insertMany_strings (instructions : List Function.Instruction) (bs : List Draft.LiteralBuffer) :
    ((∅ : Std.ExtTreeSet String).insertMany (bs.flatMap fun b => Literal.strings b.literals)).insertMany
      (instructions.flatMap fun i => i.operands.filterMap Function.Operand.string?) =
        collectStrings instructions bs := by
  refine Std.ExtTreeSet.ext_mem fun string => ?_
  simp only [collectStrings, Std.ExtTreeSet.mem_insertMany_list, Std.ExtTreeSet.mem_ofList, List.contains_eq_mem,
    decide_eq_true_eq, List.mem_append]
  tauto

/-- **An emitter at work makes the emission of the draft,** or finds its first fault. -/
theorem emit_carries (debug : Bool) (d : Draft) :
    Carries (.start d) (emit debug d) (ofDraft debug d) fun e _ s => s.emission = e := by
  unfold emit ofDraft
  refine .step (run_placeLabels _ _ _) ?_
  refine (storeBuffers_carries d.buffers.toList _).bind fun ids _ s hs => ?_
  -- From here on nothing is changed that is looked up, so each phase finds what the context has.
  have hknows : s.Knows (contextOf debug d ids) := by
    subst hs
    exact ⟨rfl, rfl, rfl⟩
  refine (instructions_carries hknows d.instructions).bind fun instructions _ s₁ hs₁ => ?_
  have hknows₁ : s₁.Knows (contextOf debug d ids) := hs₁ ▸ hknows.addInstructions instructions
  refine (catchTables_carries hknows₁ d.catchTables.toList).bind fun catchBlocks _ s₂ hs₂ => ?_
  have hknows₂ : s₂.Knows (contextOf debug d ids) := hs₂ ▸ hknows₁.addCatchBlocks catchBlocks
  cases debug with
  | true =>
    refine (scopes_carries d.scope.toList s₂ hknows₂).bind fun locals _ s₃ hs₃ => ?_
    refine .ok rfl ?_
    subst hs₃ hs₂ hs₁ hs
    exact congrArg (Emission.mk _ _) (insertMany_strings instructions d.buffers.toList)
  | false =>
    refine .ok rfl ?_
    subst hs₂ hs₁ hs
    exact congrArg (Emission.mk _ _) (insertMany_strings instructions d.buffers.toList)

end InPlace

end ScriptAssembly.Emission
