import ScriptAssembly.Program.InPlace
import ScriptAssembly.Proofs.Calls
/-
Calls on a builder in place are accepted as a whole or leave nothing behind.

Where a call is accepted, its changes amount to what `put` brings at once: the
arrays and strings that are inserted one by one are those inserted together,
and the main record with two fields added to it is the one with both. Where it
is refused, it has changed nothing before that. So a call in place does what
`perform` decides (`run_perform`), and so do calls one after another
(`afterAll_eq_run`), of which each slot's first is accepted and each other one
is refused without a trace.
-/
namespace ScriptAssembly.Builder

/-! ## Changes one after another -/

namespace InPlace

theorem run_insertArrays (b : Builder) (arrays : List (String × List Literal)) :
    (arrays.forM fun a => insertArray a.1 a.2).run b =
      .ok () { b with program := { b.program with literalArrays := b.program.literalArrays.insertMany arrays } } := by
  induction arrays generalizing b with
  | nil => simp only [Std.ExtTreeMap.insertMany_nil]; rfl
  | cons a arrays ih =>
    have hinsert : (insertArray a.1 a.2).run b = .ok ()
        { b with program := { b.program with literalArrays := b.program.literalArrays.insert a.1 a.2 } } := rfl
    rw [List.forM_eq_forM, List.forM_cons, EStateM.run_bind, hinsert, Std.ExtTreeMap.insertMany_cons]
    exact ih _

theorem run_insertStrings (b : Builder) (strings : List String) :
    (strings.forM insertString).run b =
      .ok () { b with program := { b.program with strings := b.program.strings.insertMany strings } } := by
  induction strings generalizing b with
  | nil => simp only [Std.ExtTreeSet.insertMany_nil]; rfl
  | cons s strings ih =>
    have hinsert : (insertString s).run b = .ok ()
        { b with program := { b.program with strings := b.program.strings.insert s } } := rfl
    rw [List.forM_eq_forM, List.forM_cons, EStateM.run_bind, hinsert, Std.ExtTreeSet.insertMany_cons]
    exact ih _

/-- A record that is there, or is put there, with one more field and another. -/
theorem insertIfNew_modify_modify (m : Std.ExtTreeMap String Program.Record) (name : String)
    (f g : Program.Record → Program.Record) :
    (((m.insertIfNew name (.named name)).modify name f).modify name g) =
      m.insert name (g (f (m[name]?.getD (.named name)))) := by
  refine Std.ExtTreeMap.ext_getElem? fun other => ?_
  simp only [Std.ExtTreeMap.getElem?_modify, Std.ExtTreeMap.getElem?_insertIfNew, Std.ExtTreeMap.getElem?_insert,
    Std.LawfulEqCmp.compare_eq_iff_eq]
  by_cases hother : name = other
  · subst hother
    cases hget : m[name]? with
    | none =>
      have hnot : name ∉ m := by simp [Std.ExtTreeMap.mem_iff_isSome_getElem?, hget]
      simp [hnot]
    | some r =>
      have hmem : name ∈ m := by simp [Std.ExtTreeMap.mem_iff_isSome_getElem?, hget]
      simp [hmem]
  · simp [hother]

/-! ## Calls -/

theorem run_storeFunction (b : Builder) (e : Emission) : (storeFunction e).run b =
    if e.function.name ∈ b.program.functions then .ok true b else .ok false (b.putFunction e) := by
  by_cases htaken : e.function.name ∈ b.program.functions
  · simp only [storeFunction, EStateM.run_bind, EStateM.run_get, htaken, if_true]
    rfl
  · have hinsert : (insertFunction e.function).run b = .ok ()
        { b with program := { b.program with functions := b.program.functions.insert e.function.name e.function } } :=
      rfl
    simp only [storeFunction, EStateM.run_bind, EStateM.run_get, htaken, if_false, hinsert, run_insertArrays,
      run_insertStrings]
    rfl

theorem run_storeModuleRecord (b : Builder) (commonjs : Bool) (literals : List Literal) :
    (storeModuleRecord commonjs literals).run b =
      if b.commonjs.isSome then .ok true b else .ok false (b.putModuleRecord commonjs literals) := by
  by_cases htaken : b.commonjs.isSome
  · simp only [storeModuleRecord, EStateM.run_bind, EStateM.run_get, htaken, if_true]
    rfl
  · have hmain := insertIfNew_modify_modify b.program.records b.recordName
      (·.addField commonjsField (.u8 (if commonjs then 1 else 0)))
      (·.addField moduleRecordField (.literalArray (moduleRecordKey b.recordName)))
    simp only [storeModuleRecord, EStateM.run_bind, EStateM.run_get, htaken, putModuleRecord, mainRecord, ← hmain]
    rfl

theorem run_addFunction (b : Builder) (e : Emission) : (addFunction e).run b =
    if e.function.name ∈ b.program.functions then .error (.functionTwice e.function.name) b
    else .ok () (b.putFunction e) := by
  by_cases htaken : e.function.name ∈ b.program.functions
  · simp only [addFunction, EStateM.run_bind, run_storeFunction, htaken, if_true]
    rfl
  · simp only [addFunction, EStateM.run_bind, run_storeFunction, htaken, if_false]
    rfl

theorem run_addModuleRecord (b : Builder) (commonjs : Bool) (literals : List Literal) :
    (addModuleRecord commonjs literals).run b =
      if b.commonjs.isSome then .error (.moduleRecordTwice b.recordName) b
      else .ok () (b.putModuleRecord commonjs literals) := by
  cases htaken : b.commonjs.isSome with
  | true =>
    simp only [addModuleRecord, EStateM.run_bind, EStateM.run_get, run_storeModuleRecord, htaken, if_true]
    rfl
  | false =>
    simp only [addModuleRecord, EStateM.run_bind, EStateM.run_get, run_storeModuleRecord, htaken]
    rfl

end InPlace

/-! ## Calls as data -/

namespace Call

/-- The call, carried out in place. -/
def perform : Call → InPlace Unit
  | function e _ => InPlace.addFunction e
  | moduleRecord commonjs literals => InPlace.addModuleRecord commonjs literals

/-- The builder after a call, whether or not the call came to its end. -/
def after (b : Builder) (c : Call) : Builder :=
  match c.perform.run b with
  | .ok _ b' => b'
  | .error _ b' => b'

/-- The builder after calls in a row; an aborted call does not keep others from being made. -/
def afterAll (b : Builder) (calls : List Call) : Builder := calls.foldl after b

/-- A call in place gives and leaves what it does where it is decided as a whole. -/
theorem run_perform (b : Builder) (c : Call) : c.perform.run b =
    match b.perform c with
    | .ok b' => .ok () b'
    | .error breach => .error breach b := by
  cases c with
  | function e emitted =>
    simp only [perform, InPlace.run_addFunction, Builder.perform, Builder.addFunction]
    split <;> rfl
  | moduleRecord commonjs literals =>
    simp only [perform, InPlace.run_addModuleRecord, Builder.perform, Builder.addModuleRecord]
    split <;> rfl

theorem after_eq_attempt (b : Builder) (c : Call) : after b c = b.attempt c := by
  rw [after, run_perform, attempt]
  cases b.perform c <;> rfl

/-- Calls in place in a row amount to those that are decided as a whole. -/
theorem afterAll_eq_run (b : Builder) (calls : List Call) : afterAll b calls = b.run calls := by
  rw [afterAll, Builder.run, funext₂ after_eq_attempt]

end Call

/-- **A builder takes the first call for each slot** and refuses every other without a trace. -/
theorem finish_afterAll (o : Options) (calls : List Call) :
    (∀ c : Call, c.perform.run (Call.afterAll (.start o) calls) =
      if c.slot ∈ calls.map Call.slot then .error (c.breach o.recordName) (Call.afterAll (.start o) calls)
      else .ok () ((Call.afterAll (.start o) calls).put c)) ∧
    (∀ c : Call, Call.afterAll (.start o) (calls ++ [c]) =
      if c.slot ∈ calls.map Call.slot then Call.afterAll (.start o) calls
      else (Call.afterAll (.start o) calls).put c) ∧
    (Call.afterAll (.start o) calls).program.functionCount = (functions calls).length ∧
    (Call.afterAll (.start o) calls).finish.Assembled o.recordName (functions calls) (moduleRecord? calls) := by
  have h := holds_run o calls
  simp only [Call.afterAll_eq_run]
  refine ⟨fun c => ?_, fun c => ?_, ?_, h.finish (accepted_distinct calls)⟩
  · rw [Call.run_perform, h.perform]
    by_cases htaken : c.slot ∈ calls.map Call.slot
    · simp only [mem_slots_accepted, htaken, if_true]
    · simp only [mem_slots_accepted, htaken, if_false]
  · simp only [run_snoc, h.attempt, mem_slots_accepted]
  · rw [Program.functionCount, h.functions.size, List.length_map, functions]

end ScriptAssembly.Builder
