import Mathlib.Data.List.Nodup
import ScriptAssembly.Linkage.Registration
import ScriptAssembly.Proofs.Schedule
import ScriptAssembly.Proofs.Emission
import ScriptAssembly.Proofs.Builder
/-
Finished programs have no loose ends.

A function's references are made by its emission, their targets are put into
the program's tables by the builder. `Holds` says that the tables have what
one emission needs; putting in anything else leaves it so, because keys of
literal arrays are never shared. So it holds of every function of a builder
under way (`Grown`), and a finished build is linked whatever its drafts, its
linkage and its schedule are (`scheduled_linked`).
-/
namespace ScriptAssembly

namespace Program

/-- The references of a function that was made from a draft, and what they lead to. -/
structure FunctionLinked (p : Program) (d : Draft) (f : Function) : Prop where
  /-- A literal array is that of the buffer which the draft names at the same place, and no other
  function and no module record has its key. -/
  arrays : ∀ (k j : Nat) i key, f.instructions[k]? = some i → i.operands[j]? = some (.literalArray key) →
    ∃ i' b, d.instructions[k]? = some i' ∧ i'.operands[j]? = some (.buffer b.id) ∧ b ∈ d.buffers.toList ∧
      (∀ c ∈ d.buffers.toList, c.id = b.id → c = b) ∧ p.literalArrays[key]? = some b.literals ∧
      (∀ g id, key = bufferKey g id ↔ g = f.name ∧ id = b.id) ∧ ∀ r, key ≠ moduleRecordKey r
  /-- Every buffer is there under its key, with its strings. -/
  buffers : ∀ b ∈ d.buffers.toList, p.literalArrays[bufferKey f.name b.id]? = some b.literals ∧
    ∀ s ∈ Literal.strings b.literals, s ∈ p.strings
  strings : ∀ i ∈ f.instructions, ∀ s, .string s ∈ i.operands → s ∈ p.strings
  offsets : ∀ i ∈ f.instructions, ∀ n, .offset n ∈ i.operands → n ≤ f.instructions.length
  catchBlocks : ∀ t ∈ f.catchBlocks, t.tryBegin ≤ f.instructions.length ∧ t.tryEnd ≤ f.instructions.length ∧
    t.handler ≤ f.instructions.length
  locals : ∀ v ∈ f.locals, v.start + v.length ≤ f.instructions.length

/-- Every record is stored under its own name, and the arrays that its fields name are there. -/
def RecordsLinked (p : Program) : Prop :=
  ∀ name (r : Record), p.records[name]? = some r →
    r.name = name ∧ ∀ x ∈ r.fields, ∀ key, x.value = .literalArray key → key ∈ p.literalArrays

/-- A program whose references all lead to where they should. -/
structure Linked (p : Program) (o : Options) (drafts : List Draft) : Prop where
  functions : ∀ name f, p.functions[name]? = some f →
    f.name = name ∧ ∃ d ∈ drafts, (d.emit o.debug).map Emission.function = .ok f ∧ p.FunctionLinked d f
  records : p.RecordsLinked
  /-- Apart from the module record's array, there are only arrays whose strings are in the table. -/
  literalArrays : ∀ key literals, p.literalArrays[key]? = some literals → key ≠ moduleRecordKey o.recordName →
    ∀ s ∈ Literal.strings literals, s ∈ p.strings

/-! ## One function -/

/-- The tables have the literal arrays and the strings of an emission. -/
structure Holds (p : Program) (e : Emission) : Prop where
  arrays : ∀ b ∈ e.buffers, p.literalArrays[bufferKey e.function.name b.id]? = some b.literals
  strings : ∀ s ∈ e.strings, s ∈ p.strings

end Program

namespace Emission

variable {debug : Bool} {d : Draft} {ids : Std.ExtTreeSet UInt32} {e : Emission}

theorem FromDraft.mem_strings (h : FromDraft debug d ids e) {s : String} :
    s ∈ e.strings ↔ (∃ i ∈ e.function.instructions, .string s ∈ i.operands) ∨
      ∃ b ∈ d.buffers.toList, s ∈ Literal.strings b.literals := by
  have hoperand : ∀ x : Function.Operand, x.string? = some s ↔ x = .string s := by
    intro x
    cases x <;> simp [Function.Operand.string?]
  rw [h.strings, collectStrings, Std.ExtTreeSet.mem_ofList]
  simp only [List.contains_eq_mem, decide_eq_true_eq, List.mem_append, List.mem_flatMap, List.mem_filterMap,
    hoperand, exists_eq_right]

theorem FromDraft.linked (h : FromDraft debug d ids e) {p : Program} (hp : p.Holds e) :
    p.FunctionLinked d e.function where
  arrays k j i key hi hkey := by
    obtain ⟨i', hi', hinstruction⟩ := getElem?_forall₂ h.instructions hi
    obtain ⟨x, hx, hoperand⟩ := getElem?_forall₂ (Context.instruction_ok hinstruction) hkey
    obtain ⟨id, rfl, hid, rfl⟩ := Context.operand_literalArray hoperand
    obtain ⟨hdistinct, hids⟩ := bufferIds_ok h.distinct
    obtain ⟨b, hb, rfl⟩ := (hids id).mp hid
    have hstored := hp.arrays b (h.buffers ▸ hb)
    rw [h.name] at hstored
    refine ⟨i', b, hi', hx, hb, fun c hc hcb => List.inj_on_of_nodup_map hdistinct hc hb hcb, hstored, ?_, ?_⟩
    · refine fun g id => ⟨fun hg => ?_, ?_⟩
      · obtain ⟨hname, hid⟩ := bufferKey_inj hg
        exact ⟨hname ▸ h.name.symm, hid.symm⟩
      · intro hg
        obtain ⟨rfl, rfl⟩ := hg
        rw [h.name]
        rfl
    · exact fun r => bufferKey_ne_moduleRecordKey _ _ r
  buffers b hb := by
    refine ⟨hp.arrays b (h.buffers ▸ hb), fun s hs => hp.strings s ?_⟩
    exact h.mem_strings.mpr (.inr ⟨b, hb, hs⟩)
  strings i hi s hs := hp.strings s (h.mem_strings.mpr (.inl ⟨i, hi, hs⟩))
  offsets i hi n hn := by
    obtain ⟨i', -, hinstruction⟩ := exists_of_mem_forall₂ h.instructions hi
    obtain ⟨x, -, hoperand⟩ := exists_of_mem_forall₂ (Context.instruction_ok hinstruction) hn
    obtain ⟨l, -, hl⟩ := Context.operand_offset hoperand
    rw [h.length_instructions]
    exact offset_le hl
  catchBlocks t ht := by
    obtain ⟨t', -, htable⟩ := exists_of_mem_forall₂ h.catchBlocks ht
    simp only [Context.catchBlock, bind_eq_ok, pure_eq_ok] at htable
    obtain ⟨first, hfirst, last, hlast, handler, hhandler, rfl⟩ := htable
    rw [h.length_instructions]
    exact ⟨offset_le hfirst, offset_le hlast, offset_le hhandler⟩
  locals v hv := by
    have hlocals := h.locals
    rw [h.length_instructions]
    split at hlocals
    · exact Context.localsOfAll_le (fun _ _ => offset_le) hlocals v hv
    · simp only [Except.ok.injEq] at hlocals
      rw [← hlocals] at hv
      cases hv

end Emission

namespace Program.Holds

variable {b : Builder} {e e' : Emission}

theorem putFunction_self {debug : Bool} {d : Draft} {ids : Std.ExtTreeSet UInt32} (h : Emission.FromDraft debug d ids e) :
    (b.putFunction e).program.Holds e where
  arrays x hx := by
    have hdistinct := pairwise_compare_ne (Builder.keyedArrays_distinct h.nodup_ids)
    have hmem : (bufferKey e.function.name x.id, x.literals) ∈ Builder.keyedArrays e := List.mem_map.mpr ⟨x, hx, rfl⟩
    rw [Builder.putFunction]
    exact Std.ExtTreeMap.getElem?_insertMany_list_of_mem (Std.LawfulEqCmp.compare_eq_iff_eq.mpr rfl) hdistinct hmem
  strings s hs := by
    simp only [Builder.putFunction, Std.ExtTreeSet.mem_insertMany_list]
    exact .inr (by simpa using hs)

theorem putFunction (h : b.program.Holds e) (hne : e'.function.name ≠ e.function.name) :
    (b.putFunction e').program.Holds e where
  arrays x hx := by
    have hother : ((Builder.keyedArrays e').map Prod.fst).contains (bufferKey e.function.name x.id) = false := by
      refine contains_keys_eq_false fun p hp hkey => ?_
      obtain ⟨id, hid⟩ := Builder.mem_keyedArrays hp
      exact hne (bufferKey_inj (hid.symm.trans hkey.symm)).1
    simp only [Builder.putFunction, Std.ExtTreeMap.getElem?_insertMany_list_of_contains_eq_false hother]
    exact h.arrays x hx
  strings s hs := by
    simp only [Builder.putFunction, Std.ExtTreeSet.mem_insertMany_list]
    exact .inl (h.strings s hs)

theorem putModuleRecord (h : b.program.Holds e) (commonjs : Bool) (literals : List Literal) :
    (b.putModuleRecord commonjs literals).program.Holds e where
  arrays x hx := by
    have hother : ¬ moduleRecordKey b.recordName = bufferKey e.function.name x.id := fun hkey =>
      bufferKey_ne_moduleRecordKey _ _ _ hkey.symm
    simp only [Builder.putModuleRecord, Std.ExtTreeMap.getElem?_insert, Std.LawfulEqCmp.compare_eq_iff_eq, if_neg hother]
    exact h.arrays x hx
  strings := h.strings

end Program.Holds

namespace Builder

/-! ## A builder under way -/

/-- A builder that holds nothing but functions of the given drafts, with all that they need, and the
module record. -/
structure Grown (o : Options) (drafts : List Draft) (b : Builder) : Prop where
  recordName : b.recordName = o.recordName
  functions : ∀ name f, b.program.functions[name]? = some f →
    ∃ d ∈ drafts, ∃ e, d.emit o.debug = .ok e ∧ e.function = f ∧ f.name = name ∧ b.program.Holds e
  records : b.program.RecordsLinked
  literalArrays : ∀ key literals, b.program.literalArrays[key]? = some literals → key ≠ moduleRecordKey o.recordName →
    ∀ s ∈ Literal.strings literals, s ∈ b.program.strings

variable {o : Options} {drafts : List Draft} {b : Builder}

theorem Grown.start : Grown o drafts (.start o) where
  recordName := rfl
  functions := by simp [Builder.start, Program.empty]
  records := by
    intro name r hr
    simp only [Builder.start, Program.empty, Std.ExtTreeMap.getElem?_insert, Std.LawfulEqCmp.compare_eq_iff_eq] at hr
    split at hr
    next hname => cases hr; exact ⟨hname, by simp [Program.Record.named]⟩
    · simp at hr
  literalArrays := by simp [Builder.start, Program.empty]

theorem Grown.putFunction (h : Grown o drafts b) {d : Draft} {e : Emission} (hd : d ∈ drafts)
    (he : d.emit o.debug = .ok e) : Grown o drafts (b.putFunction e) where
  recordName := h.recordName
  functions := by
    intro name f hf
    simp only [Builder.putFunction, Std.ExtTreeMap.getElem?_insert, Std.LawfulEqCmp.compare_eq_iff_eq] at hf
    split at hf
    next hname =>
      cases hf
      obtain ⟨ids, hfrom⟩ := Emission.fromDraft_of_emit he
      exact ⟨d, hd, e, he, rfl, hname, .putFunction_self hfrom⟩
    next hname =>
      obtain ⟨d', hd', e', he', rfl, hname', hp⟩ := h.functions name f hf
      exact ⟨d', hd', e', he', rfl, hname', hp.putFunction fun heq => hname (heq.trans hname')⟩
  records := by
    intro name r hr
    obtain ⟨hname, hfields⟩ := h.records name r hr
    refine ⟨hname, fun x hx key hkey => ?_⟩
    simp only [Builder.putFunction, Std.ExtTreeMap.mem_insertMany_list]
    exact .inl (hfields x hx key hkey)
  literalArrays := by
    intro key literals hkey hne s hs
    simp only [Builder.putFunction, Std.ExtTreeSet.mem_insertMany_list]
    obtain ⟨ids, hfrom⟩ := Emission.fromDraft_of_emit he
    by_cases hmem : key ∈ (keyedArrays e).map Prod.fst
    · obtain ⟨p, hp, rfl⟩ := List.mem_map.mp hmem
      obtain ⟨x, hx, rfl⟩ := List.mem_map.mp hp
      rw [(Program.Holds.putFunction_self (b := b) hfrom).arrays x hx] at hkey
      cases hkey
      have hs' : s ∈ e.strings := hfrom.mem_strings.mpr (.inr ⟨x, hfrom.buffers ▸ hx, hs⟩)
      exact .inr (by simpa using hs')
    · have hother : ((keyedArrays e).map Prod.fst).contains key = false := by simpa using hmem
      simp only [Builder.putFunction, Std.ExtTreeMap.getElem?_insertMany_list_of_contains_eq_false hother] at hkey
      exact .inl (h.literalArrays key literals hkey hne s hs)

/-- The main record keeps its name, and its new fields name nothing but the array that comes with it. -/
theorem Grown.putModuleRecord (h : Grown o drafts b) (commonjs : Bool) (literals : List Literal) :
    Grown o drafts (b.putModuleRecord commonjs literals) where
  recordName := h.recordName
  functions := by
    intro name f hf
    obtain ⟨d, hd, e, he, hfe, hname, hp⟩ := h.functions name f hf
    exact ⟨d, hd, e, he, hfe, hname, hp.putModuleRecord commonjs literals⟩
  records := by
    have hold : ∀ (name : String) (r : Program.Record), b.program.records[name]? = some r → ∀ x ∈ r.fields, ∀ key,
        x.value = .literalArray key → key ∈ (b.putModuleRecord commonjs literals).program.literalArrays := by
      intro name r hr x hx key hkey
      simp only [Builder.putModuleRecord, Std.ExtTreeMap.mem_insert]
      exact .inr ((h.records name r hr).2 x hx key hkey)
    have hmain : b.mainRecord.name = b.recordName ∧ ∀ x ∈ b.mainRecord.fields, ∀ key,
        x.value = .literalArray key → key ∈ (b.putModuleRecord commonjs literals).program.literalArrays := by
      unfold mainRecord
      cases hr : b.program.records[b.recordName]? with
      | none => exact ⟨rfl, by simp [Program.Record.named]⟩
      | some r => exact ⟨(h.records _ r hr).1, hold _ r hr⟩
    intro name r hr
    simp only [Builder.putModuleRecord, Std.ExtTreeMap.getElem?_insert, Std.LawfulEqCmp.compare_eq_iff_eq] at hr
    split at hr
    next hname =>
      cases hr
      refine ⟨hmain.1.trans hname, fun x hx key hkey => ?_⟩
      simp only [Program.Record.addField, List.mem_append, List.mem_singleton] at hx
      rcases hx with (hx | rfl) | rfl
      · exact hmain.2 x hx key hkey
      · cases hkey
      · cases hkey
        simp [Builder.putModuleRecord]
    next hname => exact ⟨(h.records name r hr).1, hold name r hr⟩
  literalArrays := by
    intro key array hkey hne
    rw [← h.recordName] at hne
    simp only [Builder.putModuleRecord, Std.ExtTreeMap.getElem?_insert, Std.LawfulEqCmp.compare_eq_iff_eq,
      if_neg hne.symm] at hkey
    exact h.literalArrays key array hkey (h.recordName ▸ hne)

theorem Grown.finish (h : Grown o drafts b) : b.finish.Linked o drafts := by
  have hfunctions : ∀ name f, b.program.functions[name]? = some f →
      f.name = name ∧ ∃ d ∈ drafts, (d.emit o.debug).map Emission.function = .ok f ∧ b.program.FunctionLinked d f := by
    intro name f hf
    obtain ⟨d, hd, e, he, rfl, hname, hp⟩ := h.functions name f hf
    obtain ⟨ids, hfrom⟩ := Emission.fromDraft_of_emit he
    exact ⟨hname, d, hd, by rw [he]; rfl, hfrom.linked hp⟩
  unfold Builder.finish
  split
  · refine ⟨fun name f hf => ?_, fun name r hr => ?_, h.literalArrays⟩
    · obtain ⟨hname, d, hd, he, hp⟩ := hfunctions name f hf
      exact ⟨hname, d, hd, he, ⟨hp.arrays, hp.buffers, hp.strings, hp.offsets, hp.catchBlocks, hp.locals⟩⟩
    · simp only [Std.ExtTreeMap.getElem?_insert, Std.LawfulEqCmp.compare_eq_iff_eq] at hr
      split at hr
      next hname =>
        cases hr
        exact ⟨hname, by simp [commonjsRecord, Program.Record.addField, Program.Record.named]⟩
      · exact h.records name r hr
  · exact ⟨hfunctions, h.records, h.literalArrays⟩

end Builder

namespace Build

/-- A build whose builder holds functions of the drafts, and whose workers have only drafts of them. -/
structure State.Grown (o : Options) (drafts : List Draft) (s : State) : Prop where
  builder : s.builder.Grown o drafts
  pending : ∀ w ∈ s.workers, ∀ d ∈ w.pending, d ∈ drafts

theorem Worker.Moves.grown {o : Options} {drafts : List Draft} {w w' : Worker} {b b' : Builder}
    (h : Worker.Moves o.debug w b w' b') (hb : b.Grown o drafts) (hw : ∀ d ∈ w.pending, d ∈ drafts) :
    b'.Grown o drafts ∧ ∀ d ∈ w'.pending, d ∈ drafts := by
  cases h with
  | rest => exact ⟨hb, hw⟩
  | fail | refuse => exact ⟨hb, fun d hd => hw d (List.mem_cons_of_mem _ hd)⟩
  | add he hadd =>
    obtain ⟨-, rfl⟩ := Builder.addFunction_eq_ok.mp hadd
    exact ⟨hb.putFunction (hw _ List.mem_cons_self) he, fun d hd => hw d (List.mem_cons_of_mem _ hd)⟩

theorem State.Moves.grown {o : Options} {drafts : List Draft} {s s' : State} (h : State.Moves o s s')
    (hs : s.Grown o drafts) : s'.Grown o drafts := by
  cases h with
  | idle => exact hs
  | refuseRecord => exact ⟨hs.builder, hs.pending⟩
  | addRecord hadd =>
    obtain ⟨-, rfl⟩ := Builder.addModuleRecord_eq_ok.mp hadd
    exact ⟨hs.builder.putModuleRecord _ _, hs.pending⟩
  | @worker before w after w' record b b' hw =>
    obtain ⟨hb, hpending⟩ := hw.grown hs.builder (hs.pending w (by simp))
    exact ⟨hb, forall_mem_moved (P := fun w => ∀ d ∈ w.pending, d ∈ drafts) hs.pending hpending⟩

theorem begin_grown (o : Options) (literals : Option (List Literal)) (drafts : List Draft) (parallelism : Nat) :
    (begin o literals drafts parallelism).Grown o drafts where
  builder := .start
  pending := by
    simp only [begin, List.mem_map]
    intro w hw d hd
    obtain ⟨c, hc, rfl⟩ := hw
    rw [← chunks_flatten (chunkSize parallelism drafts.length) drafts]
    exact List.mem_flatten.mpr ⟨c, hc, hd⟩

/-- **Every finished program is linked,** whatever its drafts, its linkage and its schedule are. -/
theorem scheduled_linked {o : Options} {linkage : Option Linkage} {drafts : List Draft} {parallelism : Nat}
    {schedule : List Turn} {program : Program}
    (h : scheduled o linkage drafts parallelism schedule = .ok program) : program.Linked o drafts := by
  simp only [scheduled, bind_eq_ok, pure_eq_ok] at h
  obtain ⟨literals, -, b, hb, rfl⟩ := h
  obtain ⟨rest, hrest⟩ := State.drain_eq_run (o := o) ((begin o literals drafts parallelism).run o schedule)
  rw [← hrest] at hb
  have hgrown := State.run_invariant (I := State.Grown o drafts) State.Moves.grown rest
    (State.run_invariant (I := State.Grown o drafts) State.Moves.grown schedule (begin_grown o literals drafts parallelism))
  have hout : b = (State.run o ((begin o literals drafts parallelism).run o schedule) rest).builder := by
    unfold State.outcome at hb
    split at hb
    · cases hb
    · cases hb
    · exact (Except.ok.inj hb).symm
  rw [hout]
  exact hgrown.builder.finish

/-- A function with a reference of every kind: a handler that goes back to a protected range, an array,
a string, and a variable that lives to the end. -/
def retryDraft (name : String) : Draft where
  name
  kind := .plain
  parameterCount := 0
  source := ⟨"m.js", "[0]"⟩
  nodes := #[.label ⟨0⟩, .instruction ⟨.createArrayWithBuffer, [.buffer 7], some ⟨0, 3⟩⟩, .label ⟨1⟩,
    .instruction ⟨.ldaStr, [.string name], none⟩, .instruction ⟨.jmp, [.label ⟨0⟩], none⟩, .label ⟨2⟩]
  catchTables := #[⟨⟨0⟩, ⟨1⟩, ⟨1⟩⟩]
  scope := some ⟨⟨0⟩, ⟨2⟩, [⟨"x", 0⟩], [⟨⟨1⟩, ⟨2⟩, [⟨"y", 1⟩], []⟩]⟩
  buffers := #[⟨7, [.integer 0, .string "zero"]⟩]

/-- Three functions whose names run into each other's keys, and the main record of a CommonJS module. -/
theorem scheduled_linked_retry :
    ∃ program, scheduled { debug := true, commonjs := true } (some (Linkage.empty.run [.request "m"]))
        [retryDraft "f", retryDraft "f#7", retryDraft "_GLOBAL"] 2 [.worker 1, .moduleRecord, .worker 0] = .ok program ∧
      program.functionNames = ["_GLOBAL", "f", "f#7"] ∧
      program.Linked { debug := true, commonjs := true } [retryDraft "f", retryDraft "f#7", retryDraft "_GLOBAL"] := by
  obtain ⟨program, hp⟩ := exists_ok_of_isOk
    (x := (scheduled { debug := true, commonjs := true } (some (Linkage.empty.run [.request "m"]))
      [retryDraft "f", retryDraft "f#7", retryDraft "_GLOBAL"] 2 [.worker 1, .moduleRecord, .worker 0]))
    (by decide +kernel)
  have hnames : (scheduled { debug := true, commonjs := true } (some (Linkage.empty.run [.request "m"]))
      [retryDraft "f", retryDraft "f#7", retryDraft "_GLOBAL"] 2 [.worker 1, .moduleRecord, .worker 0]).toOption.map
      Program.functionNames = some ["_GLOBAL", "f", "f#7"] := by decide +kernel
  rw [hp] at hnames
  exact ⟨program, hp, Option.some.inj hnames, scheduled_linked hp⟩

end Build

end ScriptAssembly
