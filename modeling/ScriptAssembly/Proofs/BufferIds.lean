import Mathlib.Data.Nat.Find
import Mathlib.Data.UInt
import ScriptAssembly.Draft.InPlace
import ScriptAssembly.Proofs.Faults
/-
The ids of literal buffers.

One counter serves two kinds of calls: a buffer that is added takes the next id,
and one that is pushed under an id of the caller's choice moves the counter
behind that id. So the next id is the least number above all stored ids
(`Numbered`), whichever calls were made, and whichever of them were aborted: an
added buffer has an id of its own, and every repetition is the work of a push.
Emission looks for repetitions in the order in which the buffers are stored,
which is the order of the calls; so the id it reports is that of the first push
that repeats one (`FirstRepeat`).
-/
namespace ScriptAssembly

theorem Emission.repeated_concat (before ids : List UInt32) (id : UInt32) :
    repeated before (ids ++ [id]) = repeated before ids ++ if id ∈ before ++ ids then [id] else [] := by
  induction ids generalizing before with
  | nil => simp [repeated]
  | cons id' ids ih => simp [repeated, ih]

namespace Draft

/-- The ids under which literal buffers are stored, in order. -/
def ids (d : Draft) : List UInt32 := d.buffers.toList.map (·.id)

/-- A draft in which no literal buffer was stored yet. -/
structure Unbuffered (d : Draft) : Prop where
  buffers : d.buffers = #[]
  nextBuffer : d.nextBuffer = 0

/-- The next id is the least number above all stored ids. -/
def Numbered (d : Draft) : Prop := ∀ n, d.nextBuffer.toNat ≤ n ↔ ∀ id ∈ d.ids, id.toNat < n

/-- Every number but the last one has a successor. -/
theorem successor_cases (n : UInt32) :
    n = 4294967295 ∧ successor n = .error .numbersExhausted ∨
      n ≠ 4294967295 ∧ (n + 1).toNat = n.toNat + 1 ∧ successor n = .ok (n + 1) := by
  have hlast : n = 4294967295 ↔ n.toNat = 4294967295 := UInt32.toNat_inj.symm
  have hsize : UInt32.size = 4294967296 := rfl
  have hlt := n.toNat_lt
  unfold successor
  by_cases hn : n.toNat + 1 < UInt32.size
  · refine .inr ⟨fun heq => ?_, ?_, if_pos hn⟩
    · have htoNat := hlast.mp heq
      omega
    · rw [UInt32.toNat_add]
      exact Nat.mod_eq_of_lt hn
  · exact .inl ⟨hlast.mpr (by omega), if_neg hn⟩

namespace BufferCall

/-! ## Single calls -/

/-- There is no number behind the id of the call. -/
def Exhausts (d : Draft) : BufferCall → Prop
  | add _ => d.nextBuffer = 4294967295
  | push b => b.id = 4294967295

/-- All that can come of a call. -/
inductive Outcome (d : Draft) : BufferCall → EStateM.Result Breach Draft (Option UInt32) → Prop
  | added {literals : List Literal} : d.nextBuffer ≠ 4294967295 →
    (d.nextBuffer + 1).toNat = d.nextBuffer.toNat + 1 →
    Outcome d (.add literals) (.ok (some d.nextBuffer)
      { d with nextBuffer := d.nextBuffer + 1, buffers := d.buffers.push ⟨d.nextBuffer, literals⟩ })
  | pushed {b : LiteralBuffer} : b.id ≠ 4294967295 → (b.id + 1).toNat = b.id.toNat + 1 →
    Outcome d (.push b) (.ok none
      { d with nextBuffer := max d.nextBuffer (b.id + 1), buffers := d.buffers.push b })
  | aborted {c : BufferCall} : c.Exhausts d → Outcome d c (.error .numbersExhausted d)

/-- What a call gives and leaves, where it is decided before anything is changed. -/
def result (d : Draft) : BufferCall → Except Breach (Option UInt32 × Draft)
  | add literals => (d.addBuffer literals).map fun r => (some r.1, r.2)
  | push b => (d.pushBuffer b).map fun d' => (none, d')

variable {d : Draft}

theorem run_successor_error {n : UInt32} {breach : Breach} (h : successor n = .error breach) (d : Draft) :
    (InPlace.successor n).run d = .error breach d := by
  rw [InPlace.successor, h]
  rfl

theorem run_successor_ok {n next : UInt32} (h : successor n = .ok next) (d : Draft) :
    (InPlace.successor n).run d = .ok next d := by
  rw [InPlace.successor, h]
  rfl

theorem outcome (d : Draft) (c : BufferCall) : Outcome d c (c.perform.run d) := by
  cases c with
  | add literals =>
    simp only [perform, InPlace.addBuffer, EStateM.run_bind, EStateM.run_get]
    obtain ⟨hlast, hnone⟩ | ⟨hlt, hnext, hsome⟩ := successor_cases d.nextBuffer
    · rw [run_successor_error hnone]
      exact .aborted hlast
    · rw [run_successor_ok hsome]
      exact .added hlt hnext
  | push b =>
    simp only [perform, InPlace.pushBuffer, EStateM.run_bind, EStateM.run_get]
    obtain ⟨hlast, hnone⟩ | ⟨hlt, hnext, hsome⟩ := successor_cases b.id
    · rw [run_successor_error hnone]
      exact .aborted hlast
    · rw [run_successor_ok hsome]
      exact .pushed hlt hnext

/-- A call in place gives and leaves what it does where it is decided as a whole. -/
theorem run_perform (d : Draft) (c : BufferCall) : c.perform.run d =
    match c.result d with
    | .ok (reply, d') => .ok reply d'
    | .error breach => .error breach d := by
  cases c with
  | add literals =>
    simp only [perform, InPlace.addBuffer, EStateM.run_bind, EStateM.run_get, result, addBuffer]
    cases hnext : successor d.nextBuffer with
    | error breach => rw [run_successor_error hnext]; rfl
    | ok next => rw [run_successor_ok hnext]; rfl
  | push b =>
    simp only [perform, InPlace.pushBuffer, EStateM.run_bind, EStateM.run_get, result, Draft.pushBuffer]
    cases hnext : successor b.id with
    | error breach => rw [run_successor_error hnext]; rfl
    | ok next => rw [run_successor_ok hnext]; rfl

end BufferCall

open BufferCall

variable {d : Draft} {calls : List BufferCall} {c : BufferCall}

/-! ## The next id -/

theorem ids_push (b : LiteralBuffer) (next : UInt32) :
    ids { d with nextBuffer := next, buffers := d.buffers.push b } = d.ids ++ [b.id] := by
  simp [ids]

theorem Unbuffered.ids_eq (h : d.Unbuffered) : d.ids = [] := by
  rw [ids, h.buffers]
  rfl

theorem Unbuffered.numbered (h : d.Unbuffered) : d.Numbered := by
  intro n
  simp [h.ids_eq, h.nextBuffer]

theorem Numbered.lt_nextBuffer (h : d.Numbered) {id : UInt32} (hid : id ∈ d.ids) : id < d.nextBuffer :=
  UInt32.lt_iff_toNat_lt.mpr ((h _).mp (Nat.le_refl _) id hid)

/-- The next id stays the least number above all others, as the id of a call moves the counter just behind itself. -/
theorem Numbered.step (h : d.Numbered) (c : BufferCall) : (after d c).Numbered := by
  have hcall := outcome d c
  unfold after
  generalize c.perform.run d = result at hcall
  cases hcall with
  | added hlt hnext =>
    intro n
    simp only [ids_push, List.forall_mem_append, List.forall_mem_singleton, ← h n, hnext]
    omega
  | pushed hlt hnext =>
    intro n
    simp only [ids_push, List.forall_mem_append, List.forall_mem_singleton, ← h n, UInt32.toNat_max, hnext]
    omega
  | aborted => exact h

theorem afterAll_concat (d : Draft) (calls : List BufferCall) (c : BufferCall) :
    afterAll d (calls ++ [c]) = after (afterAll d calls) c := List.foldl_concat ..

theorem Numbered.run (h : d.Numbered) (calls : List BufferCall) : (afterAll d calls).Numbered := by
  induction calls using List.reverseRecOn with
  | nil => exact h
  | append_singleton calls c ih =>
    rw [afterAll_concat]
    exact ih.step c

/-! ## Single calls -/

/-- A call that takes an id above all others, or the id of the caller's choice, or none and leaves no trace. -/
structure Answers (d : Draft) (c : BufferCall) : Prop where
  decided : c.perform.run d =
    match c.result d with
    | .ok (reply, d') => .ok reply d'
    | .error breach => .error breach d
  aborts : (∃ breach d', c.perform.run d = .error breach d') ↔
    (∃ b : LiteralBuffer, c = .push b ∧ b.id = 4294967295) ∨
      (∃ literals, c = .add literals) ∧ d.nextBuffer = 4294967295
  aborted : ∀ breach d', c.perform.run d = .error breach d' →
    d' = d ∧ ∀ later, afterAll d (c :: later) = afterAll d later
  added : ∀ literals reply d', c = .add literals → c.perform.run d = .ok reply d' →
    ∃ id, reply = some id ∧ (∀ stored ∈ d.ids, stored < id) ∧ d'.buffers = d.buffers.push ⟨id, literals⟩
  pushed : ∀ b reply d', c = .push b → c.perform.run d = .ok reply d' → d'.buffers = d.buffers.push b

theorem BufferCall.exhausts_iff : c.Exhausts d ↔ (∃ b : LiteralBuffer, c = .push b ∧ b.id = 4294967295) ∨
    (∃ literals, c = .add literals) ∧ d.nextBuffer = 4294967295 := by
  cases c <;> simp [Exhausts]

theorem Numbered.answers (hd : d.Numbered) (c : BufferCall) : d.Answers c where
  decided := run_perform d c
  aborts := by
    rw [← exhausts_iff]
    have hcall := outcome d c
    generalize c.perform.run d = result at hcall
    cases hcall with
    | added hlt _ | pushed hlt _ => simp [Exhausts, hlt]
    | aborted hexhausts => exact ⟨fun _ => hexhausts, fun _ => ⟨_, _, rfl⟩⟩
  aborted breach d' hrun := by
    have hcall := outcome d c
    rw [hrun] at hcall
    cases hcall with
    | aborted =>
      have hafter : after d c = d := by rw [after, hrun]
      refine ⟨rfl, fun later => ?_⟩
      rw [afterAll, List.foldl_cons, hafter, afterAll]
  added literals reply d' hc hrun := by
    have hcall := outcome d c
    rw [hrun] at hcall
    cases hcall with
    | added =>
      cases hc
      exact ⟨d.nextBuffer, rfl, fun stored => hd.lt_nextBuffer, rfl⟩
    | pushed => cases hc
  pushed b reply d' hc hrun := by
    have hcall := outcome d c
    rw [hrun] at hcall
    cases hcall with
    | added => cases hc
    | pushed =>
      cases hc
      rfl

/-! ## Repetitions -/

/-- At a position among the calls stands a push that comes to its end although its id is stored already. -/
structure RepeatsAt (d : Draft) (calls : List BufferCall) (k : Nat) (b : LiteralBuffer) : Prop where
  call : calls[k]? = some (.push b)
  ends : ∃ reply d', (push b).perform.run (afterAll d (calls.take k)) = .ok reply d'
  stored : (afterAll d (calls.take k)).Stores b.id

/-- The first push of an id that is stored already. -/
def FirstRepeat (d : Draft) (calls : List BufferCall) (b : LiteralBuffer) : Prop :=
  ∃ k, RepeatsAt d calls k b ∧ ∀ sooner < k, ∀ b', ¬ RepeatsAt d calls sooner b'

variable {k : Nat} {b : LiteralBuffer}

theorem exists_firstRepeat (h : RepeatsAt d calls k b) : ∃ b, FirstRepeat d calls b := by
  classical
  have hex : ∃ k b, RepeatsAt d calls k b := ⟨k, b, h⟩
  obtain ⟨b, hb⟩ := Nat.find_spec hex
  exact ⟨b, Nat.find hex, hb, fun sooner hlt b' hb' => Nat.find_min hex hlt ⟨b', hb'⟩⟩

/-- With one more call, the repetitions are those from before and perhaps that of the last call. -/
theorem repeatsAt_concat : RepeatsAt d (calls ++ [c]) k b ↔ RepeatsAt d calls k b ∨
    k = calls.length ∧ c = .push b ∧ (∃ reply d', (push b).perform.run (afterAll d calls) = .ok reply d') ∧
      (afterAll d calls).Stores b.id := by
  constructor
  · rintro ⟨hcall, hends, hstored⟩
    rcases getElem?_concat_iff.mp hcall with hcall | ⟨rfl, hlast⟩
    · have hk : k < calls.length := (List.getElem?_eq_some_iff.mp hcall).1
      rw [List.take_append_of_le_length (Nat.le_of_lt hk)] at hends hstored
      exact .inl ⟨hcall, hends, hstored⟩
    · rw [List.take_left] at hends hstored
      exact .inr ⟨rfl, hlast, hends, hstored⟩
  · rintro (⟨hcall, hends, hstored⟩ | ⟨rfl, rfl, hends, hstored⟩)
    · have hk : k < calls.length := (List.getElem?_eq_some_iff.mp hcall).1
      refine ⟨getElem?_concat_iff.mpr (.inl hcall), ?_, ?_⟩
      · rwa [List.take_append_of_le_length (Nat.le_of_lt hk)]
      · rwa [List.take_append_of_le_length (Nat.le_of_lt hk)]
    · refine ⟨getElem?_concat_iff.mpr (.inr ⟨rfl, rfl⟩), ?_, ?_⟩
      · rwa [List.take_left]
      · rwa [List.take_left]

/-- Only with no repetition before it, the last call makes the first one. -/
theorem firstRepeat_concat : FirstRepeat d (calls ++ [c]) b ↔ FirstRepeat d calls b ∨
    (∀ k b', ¬ RepeatsAt d calls k b') ∧ c = .push b ∧
      (∃ reply d', (push b).perform.run (afterAll d calls) = .ok reply d') ∧ (afterAll d calls).Stores b.id := by
  have hbound : ∀ {k b'}, RepeatsAt d calls k b' → k < calls.length := fun h =>
    (List.getElem?_eq_some_iff.mp h.call).1
  constructor
  · rintro ⟨k, hk, hsooner⟩
    rcases repeatsAt_concat.mp hk with hk | ⟨rfl, hlast⟩
    · exact .inl ⟨k, hk, fun sooner hlt b' hb' => hsooner sooner hlt b' (repeatsAt_concat.mpr (.inl hb'))⟩
    · exact .inr ⟨fun k b' hb' => hsooner k (hbound hb') b' (repeatsAt_concat.mpr (.inl hb')), hlast⟩
  · rintro (⟨k, hk, hsooner⟩ | ⟨hnone, hlast⟩)
    · refine ⟨k, repeatsAt_concat.mpr (.inl hk), fun sooner hlt b' hb' => ?_⟩
      rcases repeatsAt_concat.mp hb' with hb' | ⟨rfl, -⟩
      · exact hsooner sooner hlt b' hb'
      · have hk := hbound hk
        omega
    · refine ⟨calls.length, repeatsAt_concat.mpr (.inr ⟨rfl, hlast⟩), fun sooner hlt b' hb' => ?_⟩
      rcases repeatsAt_concat.mp hb' with hb' | ⟨rfl, -⟩
      · exact hnone sooner b' hb'
      · omega

/-- An id is stored for the second time by a push that comes to its end, and by no other call. -/
theorem repeated_after (h : d.Numbered) (c : BufferCall) : ∃ more : List UInt32,
    Emission.repeated [] (after d c).ids = Emission.repeated [] d.ids ++ more ∧
      ∀ id, more.head? = some id ↔ ∃ b : LiteralBuffer, b.id = id ∧ c = .push b ∧
        (∃ reply d', (push b).perform.run d = .ok reply d') ∧ d.Stores b.id := by
  have hcall := outcome d c
  unfold after
  generalize hrun : c.perform.run d = result at hcall
  cases hcall with
  | added hlt hnext =>
    have hnew : d.nextBuffer ∉ d.ids := fun hmem => UInt32.lt_irrefl _ (h.lt_nextBuffer hmem)
    refine ⟨[], ?_, by simp⟩
    rw [ids_push, Emission.repeated_concat, List.nil_append, if_neg hnew]
  | @pushed b hlt hnext =>
    refine ⟨if d.Stores b.id then [b.id] else [], ?_, fun id => ?_⟩
    · rw [ids_push, Emission.repeated_concat, List.nil_append]
      rfl
    · by_cases hstored : d.Stores b.id
      · simp [hstored, hrun]
      · simp [hstored]
  | aborted =>
    refine ⟨[], (List.append_nil _).symm, fun id => ?_⟩
    simp only [List.head?_nil, reduceCtorEq, false_iff]
    rintro ⟨b, -, rfl, ⟨reply, d', hends⟩, -⟩
    rw [hrun] at hends
    cases hends

theorem head?_repeated (h : d.Unbuffered) {id : UInt32} :
    (Emission.repeated [] (afterAll d calls).ids).head? = some id ↔ ∃ b, b.id = id ∧ FirstRepeat d calls b := by
  induction calls using List.reverseRecOn generalizing id with
  | nil =>
    have hids : (afterAll d []).ids = [] := h.ids_eq
    rw [hids]
    simp only [Emission.repeated, List.head?_nil, reduceCtorEq, false_iff]
    rintro ⟨b, -, k, hk, -⟩
    exact absurd hk.call (by simp)
  | append_singleton calls c ih =>
    have hnone : Emission.repeated [] (afterAll d calls).ids = [] ↔ ∀ k b, ¬ RepeatsAt d calls k b := by
      rw [← List.head?_eq_none_iff, Option.eq_none_iff_forall_ne_some]
      constructor
      · intro hnone k b hb
        obtain ⟨b', hfirst⟩ := exists_firstRepeat hb
        exact hnone b'.id (ih.mpr ⟨b', rfl, hfirst⟩)
      · intro hnone id hid
        obtain ⟨b, -, k, hb, -⟩ := ih.mp hid
        exact hnone k b hb
    obtain ⟨more, hmore, hhead⟩ := repeated_after (h.numbered.run calls) c
    rw [afterAll_concat, hmore, List.head?_append, Option.or_eq_some_iff, List.head?_eq_none_iff, hnone, ih, hhead]
    simp only [firstRepeat_concat, and_or_left, exists_or, ← exists_and_left]
    refine or_congr_right ?_
    refine exists_congr fun b => ?_
    tauto

/-! ## Emission -/

theorem duplicateBuffer_not_mem_labelFaults {l : Label} {id : UInt32} :
    .duplicateBuffer id ∉ Emission.labelFaults d l := by
  unfold Emission.labelFaults
  split <;> simp

theorem duplicateBuffer_not_mem_instructionFaults {i : Instruction} {id : UInt32} :
    .duplicateBuffer id ∉ Emission.instructionFaults d i := by
  have hoperand : ∀ x, .duplicateBuffer id ∉ Emission.operandFaults d x := by
    intro x
    cases x with
    | buffer other =>
      simp only [Emission.operandFaults]
      split <;> simp
    | label l => exact duplicateBuffer_not_mem_labelFaults
    | register | immediate | double | string | function => simp [Emission.operandFaults]
  have hcount : .duplicateBuffer id ∉ Emission.countFaults i := by
    unfold Emission.countFaults
    split <;> simp
  simp [Emission.instructionFaults, Emission.kindFaults, hcount, hoperand]

/-- Emission looks at the ids first, and reports one for nothing else than its repetition. -/
theorem emit_duplicateBuffer_iff {debug : Bool} {id : UInt32} :
    d.emit debug = .error ⟨d.name, .duplicateBuffer id⟩ ↔ (Emission.repeated [] d.ids).head? = some id := by
  have hlater : .duplicateBuffer id ∉ d.instructions.flatMap (Emission.instructionFaults d) ++
      (d.catchTables.toList.flatMap (Emission.catchFaults d) ++
        if debug then d.scopes.flatMap (Emission.scopeFaults d) else []) := by
    cases debug <;>
      simp [duplicateBuffer_not_mem_instructionFaults, Emission.catchFaults, Emission.scopeFaults,
        duplicateBuffer_not_mem_labelFaults]
  rw [(emit_reports debug d).error_iff, List.head?_map, Option.map_eq_some_iff]
  simp only [EmissionError.mk.injEq, true_and, exists_eq_right]
  rw [Emission.faults, List.head?_append, Option.or_eq_some_iff, List.head?_map, Option.map_eq_some_iff]
  simp only [Emission.Fault.duplicateBuffer.injEq, exists_eq_right]
  exact or_iff_left fun hfault => hlater (List.mem_of_head? hfault.2)

theorem name_afterAll (d : Draft) (calls : List BufferCall) : (afterAll d calls).name = d.name := by
  induction calls using List.reverseRecOn with
  | nil => rfl
  | append_singleton calls c ih =>
    rw [afterAll_concat, ← ih, after]
    have hcall := outcome (afterAll d calls) c
    generalize c.perform.run (afterAll d calls) = result at hcall
    cases hcall <;> rfl

/-- Repeated ids that emission finds where they were pushed. -/
structure ReportsRepeats (d : Draft) (calls : List BufferCall) : Prop where
  found : ∀ debug, (∃ id, (afterAll d calls).emit debug = .error ⟨d.name, .duplicateBuffer id⟩) ↔
    ∃ k b, RepeatsAt d calls k b
  first : ∀ debug id, (afterAll d calls).emit debug = .error ⟨d.name, .duplicateBuffer id⟩ ↔
    ∃ b, b.id = id ∧ FirstRepeat d calls b

theorem Unbuffered.reportsRepeats (h : d.Unbuffered) (calls : List BufferCall) : ReportsRepeats d calls := by
  have hfirst : ∀ debug id, (afterAll d calls).emit debug = .error ⟨d.name, .duplicateBuffer id⟩ ↔
      ∃ b, b.id = id ∧ FirstRepeat d calls b := by
    intro debug id
    rw [← name_afterAll d calls, emit_duplicateBuffer_iff, head?_repeated h]
  refine ⟨fun debug => ?_, hfirst⟩
  simp only [hfirst]
  constructor
  · rintro ⟨id, b, -, k, hb, -⟩
    exact ⟨k, b, hb⟩
  · rintro ⟨k, b, hb⟩
    obtain ⟨b', hb'⟩ := exists_firstRepeat hb
    exact ⟨b'.id, b', rfl, hb'⟩

/-- **Added buffers have ids of their own** whatever else is pushed, a call without a number left changes nothing, and
emission reports the first push that repeats an id. -/
theorem Unbuffered.numbers_afterAll (h : d.Unbuffered) (calls : List BufferCall) :
    (afterAll d calls).Numbered ∧ (∀ c, (afterAll d calls).Answers c) ∧ ReportsRepeats d calls :=
  ⟨h.numbered.run calls, (h.numbered.run calls).answers, h.reportsRepeats calls⟩

/-- A function without literal buffers. -/
def bare : Draft where
  name := "f"
  kind := .plain
  parameterCount := 0
  source := ⟨"m.js", ""⟩
  nodes := #[.instruction ⟨.jmp, [.label ⟨0⟩], none⟩]

/-- Calls of both kinds: two ids are repeated, the greater one first, and two calls have no number left. -/
def mixedCalls : List BufferCall :=
  [.add [.null], .push ⟨5, []⟩, .push ⟨4294967295, []⟩, .push ⟨5, [.null]⟩, .add [], .push ⟨0, []⟩,
    .push ⟨4294967294, []⟩, .add []]

theorem Unbuffered.numbers_afterAll_mixed : bare.Unbuffered ∧
    (afterAll bare mixedCalls).ids = [0, 5, 5, 6, 0, 4294967294] ∧
    (afterAll bare mixedCalls).nextBuffer = 4294967295 ∧
    (afterAll bare mixedCalls).emit true = .error ⟨"f", .duplicateBuffer 5⟩ ∧
    ∃ breach d', (add []).perform.run (afterAll bare mixedCalls) = .error breach d' := by
  have hbare : bare.Unbuffered := ⟨rfl, rfl⟩
  obtain ⟨-, hanswers, hreports⟩ := hbare.numbers_afterAll mixedCalls
  have hnext : (afterAll bare mixedCalls).nextBuffer = 4294967295 := by decide +kernel
  refine ⟨hbare, by decide +kernel, hnext, ?_, (hanswers (.add [])).aborts.mpr (.inr ⟨⟨[], rfl⟩, hnext⟩)⟩
  -- The second push of the id 5 is the first repetition.
  refine (hreports.first true 5).mpr ⟨⟨5, [.null]⟩, rfl, 3, ⟨rfl, ⟨none, _, rfl⟩, by decide +kernel⟩, ?_⟩
  rintro sooner hlt b ⟨hcall, -, hstored⟩
  have hsooner : sooner = 0 ∨ sooner = 1 ∨ sooner = 2 := by omega
  rcases hsooner with rfl | rfl | rfl
  · cases hcall
  · cases hcall
    exact absurd hstored (by decide +kernel)
  · cases hcall
    exact absurd hstored (by decide +kernel)

end Draft

end ScriptAssembly
