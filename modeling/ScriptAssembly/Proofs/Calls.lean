import ScriptAssembly.Proofs.Builder
import ScriptAssembly.Proofs.Emission
import Mathlib.Data.List.Induction
import Mathlib.Data.List.Nodup
import Mathlib.Algebra.GroupWithZero.Nat
/-
Runs of calls on a builder.

Each call is for a slot, the name of a function or the one place of the
module record, and of all calls for a slot the first is accepted and the
others are refused. So what a builder holds can be read off its accepted
calls (`Holds`). An accepted call adds to every table under keys that are not
there yet, for the keys of two slots have nothing in common; that is why
each table lists what the calls brought and nothing is ever overwritten.
-/
namespace ScriptAssembly

/-- No two entries of a table are under one key. -/
theorem nodup_keys_toList {α : Type} (m : Std.ExtTreeMap String α) : (m.toList.map Prod.fst).Nodup := by
  rw [Std.ExtTreeMap.map_fst_toList_eq_keys]
  exact Std.ExtTreeMap.nodup_keys

/-- A table that has the given entries, no two of them under one key. -/
structure Lists {α : Type} (m : Std.ExtTreeMap String α) (entries : List (String × α)) : Prop where
  distinct : (entries.map Prod.fst).Nodup
  getElem? : ∀ key value, m[key]? = some value ↔ (key, value) ∈ entries
  size : m.size = entries.length

namespace Lists

variable {α : Type} {m : Std.ExtTreeMap String α} {entries more : List (String × α)}

theorem empty : Lists (∅ : Std.ExtTreeMap String α) [] := by
  constructor <;> simp

theorem mem (h : Lists m entries) {key : String} : key ∈ m ↔ key ∈ entries.map Prod.fst := by
  rw [Std.ExtTreeMap.mem_iff_isSome_getElem?, Option.isSome_iff_exists]
  simp only [h.getElem?, List.mem_map, Prod.exists, exists_and_right, exists_eq_right]

/-- Entries under new keys are added to those that are there. -/
theorem insertMany (h : Lists m entries) (hmore : (more.map Prod.fst).Nodup)
    (hnew : ∀ p ∈ entries, ∀ q ∈ more, p.1 ≠ q.1) : Lists (m.insertMany more) (entries ++ more) := by
  have hdistinct := pairwise_compare_ne hmore
  have hother : ∀ key, key ∈ entries.map Prod.fst → (more.map Prod.fst).contains key = false := by
    intro key hkey
    obtain ⟨p, hp, rfl⟩ := List.mem_map.mp hkey
    exact contains_keys_eq_false (hnew p hp)
  have hread : ∀ key value, (key, value) ∈ more → (m.insertMany more)[key]? = some value := fun key value hv =>
    Std.ExtTreeMap.getElem?_insertMany_list_of_mem (Std.LawfulEqCmp.compare_eq_iff_eq.mpr rfl) hdistinct hv
  refine ⟨?_, fun key value => ?_, ?_⟩
  · rw [List.map_append, List.nodup_append]
    refine ⟨h.distinct, hmore, fun k hk k' hk' => ?_⟩
    obtain ⟨p, hp, rfl⟩ := List.mem_map.mp hk
    obtain ⟨q, hq, rfl⟩ := List.mem_map.mp hk'
    exact hnew p hp q hq
  · rw [List.mem_append]
    by_cases hk : key ∈ more.map Prod.fst
    · obtain ⟨⟨k, v⟩, hv, rfl⟩ := List.mem_map.mp hk
      rw [hread k v hv, Option.some.injEq]
      constructor
      · intro heq
        exact .inr (heq ▸ hv)
      · intro hmem
        rcases hmem with hold | hmem
        · exact absurd rfl (hnew _ hold (k, v) hv)
        · exact Option.some.inj ((hread k v hv).symm.trans (hread k value hmem))
    · have hcontains : (more.map Prod.fst).contains key = false := by simpa using hk
      rw [Std.ExtTreeMap.getElem?_insertMany_list_of_contains_eq_false hcontains, h.getElem?]
      constructor
      · exact .inl
      · intro hmem
        rcases hmem with hold | hmem
        · exact hold
        · exact absurd (List.mem_map_of_mem (f := Prod.fst) hmem) hk
  · rw [Std.ExtTreeMap.size_insertMany_list hdistinct fun key hkey => hother key (h.mem.mp hkey), h.size,
      List.length_append]

/-- One entry under a new key is added to those that are there. -/
theorem insert (h : Lists m entries) {key : String} (value : α) (hkey : key ∉ entries.map Prod.fst) :
    Lists (m.insert key value) (entries ++ [(key, value)]) := by
  rw [← Std.ExtTreeMap.insertMany_list_singleton]
  refine h.insertMany (by simp) fun p hp q hq => ?_
  rw [List.mem_singleton] at hq
  subst hq
  intro heq
  exact hkey (List.mem_map.mpr ⟨p, hp, heq⟩)

theorem perm_toList (h : Lists m entries) : m.toList.Perm entries := by
  rw [List.perm_ext_iff_of_nodup (nodup_keys_toList m).of_map h.distinct.of_map]
  exact fun e => Std.ExtTreeMap.mem_toList_iff_getElem?_eq_some.trans (h.getElem? e.1 e.2)

end Lists

namespace Builder

/-- One call on a builder. A function that is added is always one that was emitted. -/
inductive Call
  | function (emission : Emission) (emitted : ∃ debug d, Draft.emit debug d = .ok emission)
  | moduleRecord (commonjs : Bool) (literals : List Literal)

namespace Call

/-- What a call is for: the name of a function, or the one place of the module record. -/
def slot : Call → Option String
  | function e _ => some e.function.name
  | moduleRecord _ _ => none

def emission? : Call → Option Emission
  | function e _ => some e
  | moduleRecord _ _ => none

/-- The flag for CommonJS and the literals of the module record. -/
def record? : Call → Option (Bool × List Literal)
  | function _ _ => none
  | moduleRecord commonjs literals => some (commonjs, literals)

/-- The literal arrays that a call brings, under their keys. -/
def arrays (recordName : String) : Call → List (String × List Literal)
  | function e _ => keyedArrays e
  | moduleRecord _ literals => [(moduleRecordKey recordName, literals)]

theorem mem_arrays {recordName key : String} {literals : List Literal} {c : Call} :
    (key, literals) ∈ c.arrays recordName ↔
      (∃ e, c.emission? = some e ∧ ∃ b ∈ e.buffers, bufferKey e.function.name b.id = key ∧ b.literals = literals) ∨
      ∃ commonjs, c.record? = some (commonjs, literals) ∧ moduleRecordKey recordName = key := by
  cases c with
  | function e _ => simp [arrays, emission?, record?, keyedArrays]
  | moduleRecord commonjs ls => simp [arrays, emission?, record?, and_comm, eq_comm]

/-- Why a call is refused if its slot is taken. -/
def breach (recordName : String) : Call → Breach
  | function e _ => .functionTwice e.function.name
  | moduleRecord _ _ => .moduleRecordTwice recordName

/-- An emitted function has no two arrays under one key. -/
theorem arrays_distinct (recordName : String) (c : Call) : ((c.arrays recordName).map Prod.fst).Nodup := by
  cases c with
  | moduleRecord commonjs literals => simp [arrays]
  | function e emitted =>
    obtain ⟨debug, d, he⟩ := emitted
    obtain ⟨ids, hd⟩ := Emission.fromDraft_of_emit he
    exact keyedArrays_distinct hd.nodup_ids

/-- Calls for different slots bring arrays under different keys. -/
theorem arrays_disjoint (recordName : String) {c d : Call} (h : c.slot ≠ d.slot) :
    ∀ p ∈ c.arrays recordName, ∀ q ∈ d.arrays recordName, p.1 ≠ q.1 := by
  cases c with
  | function e _ =>
    cases d with
    | function e' _ => exact keyedArrays_disjoint fun hname => h (congrArg some hname)
    | moduleRecord => simpa only [arrays, List.mem_singleton, forall_eq] using keyedArrays_ne_moduleRecordKey recordName
  | moduleRecord =>
    cases d with
    | function e _ =>
      simp only [arrays, List.mem_singleton, forall_eq]
      exact fun q hq => (keyedArrays_ne_moduleRecordKey recordName q hq).symm
    | moduleRecord => exact absurd rfl h

end Call

/-! ## Runs -/

def perform (b : Builder) : Call → Except Breach Builder
  | .function e _ => b.addFunction e
  | .moduleRecord commonjs literals => b.addModuleRecord commonjs literals

/-- The builder after a call that may be refused. -/
def attempt (b : Builder) (c : Call) : Builder :=
  match b.perform c with
  | .ok b' => b'
  | .error _ => b

/-- The builder after a run of calls. -/
def run (b : Builder) (calls : List Call) : Builder := calls.foldl attempt b

/-- The builder with what a call brings, whether or not it should be accepted. -/
def put (b : Builder) : Call → Builder
  | .function e _ => b.putFunction e
  | .moduleRecord commonjs literals => b.putModuleRecord commonjs literals

/-- The first call for each slot. -/
def accepted : List Call → List Call
  | [] => []
  | c :: cs => c :: (accepted cs).filter (·.slot != c.slot)

def functions (calls : List Call) : List Emission := (accepted calls).filterMap Call.emission?

def moduleRecord? (calls : List Call) : Option (Bool × List Literal) := (accepted calls).findSome? Call.record?

theorem accepted_snoc (calls : List Call) (c : Call) :
    accepted (calls ++ [c]) =
      if c.slot ∈ calls.map Call.slot then accepted calls else accepted calls ++ [c] := by
  induction calls with
  | nil => rfl
  | cons d calls ih =>
    simp only [List.cons_append, accepted, ih, List.map_cons, List.mem_cons]
    by_cases hd : c.slot = d.slot
    · simp only [hd, true_or, if_true]
      split <;> simp [hd]
    · simp only [hd, false_or]
      split <;> simp [hd]

/-- Every slot that is called for has a call that is accepted. -/
theorem mem_slots_accepted (calls : List Call) (slot : Option String) :
    slot ∈ (accepted calls).map Call.slot ↔ slot ∈ calls.map Call.slot := by
  induction calls with
  | nil => rfl
  | cons d calls ih =>
    by_cases hd : slot = d.slot
    · simp [accepted, hd]
    · simp only [accepted, List.map_cons, List.mem_cons, hd, false_or, ← ih, List.mem_map, List.mem_filter, bne_iff_ne]
      constructor
      · intro h
        obtain ⟨c, ⟨hc, -⟩, hslot⟩ := h
        exact ⟨c, hc, hslot⟩
      · intro h
        obtain ⟨c, hc, hslot⟩ := h
        exact ⟨c, ⟨hc, fun heq => hd (hslot.symm.trans heq)⟩, hslot⟩

/-- Accepted calls are for different slots. -/
theorem accepted_distinct (calls : List Call) : ((accepted calls).map Call.slot).Nodup := by
  induction calls with
  | nil => exact .nil
  | cons d calls ih =>
    rw [accepted, List.map_cons, List.nodup_cons]
    constructor
    · simp only [List.mem_map, List.mem_filter, bne_iff_ne, not_exists, not_and]
      exact fun c hc => hc.2
    · exact ih.sublist (List.filter_sublist.map _)

/-- Some call brings a module record where one is for its place. -/
theorem isSome_record? (calls : List Call) :
    (calls.findSome? Call.record?).isSome = true ↔ none ∈ calls.map Call.slot := by
  rw [List.findSome?_isSome_iff, List.mem_map]
  refine exists_congr fun c => and_congr_right fun _ => ?_
  cases c <;> simp [Call.record?, Call.slot]

/-- The module record that is accepted is the first. -/
theorem moduleRecord?_eq (calls : List Call) : moduleRecord? calls = calls.findSome? Call.record? := by
  induction calls using List.reverseRecOn with
  | nil => rfl
  | append_singleton calls c ih =>
    rw [moduleRecord?] at ih
    rw [moduleRecord?, accepted_snoc, List.findSome?_append]
    split
    next htaken =>
      rw [ih]
      cases c with
      | function => simp [Call.record?]
      | moduleRecord =>
        obtain ⟨r, hr⟩ := Option.isSome_iff_exists.mp ((isSome_record? calls).mpr htaken)
        rw [hr, Option.some_or]
    next => rw [List.findSome?_append, ih]

/-- Of calls for different slots, at most one brings a module record. -/
theorem findSome?_record? {calls : List Call} (hdistinct : (calls.map Call.slot).Nodup) {r : Bool × List Literal} :
    calls.findSome? Call.record? = some r ↔ ∃ c ∈ calls, c.record? = some r := by
  have hslot : ∀ c : Call, c.record?.isSome → c.slot = none := by
    intro c hc
    cases c with
    | function => cases hc
    | moduleRecord => rfl
  constructor
  · exact List.exists_of_findSome?_eq_some
  · intro h
    obtain ⟨c, hc, hr⟩ := h
    have hsome : (calls.findSome? Call.record?).isSome :=
      List.findSome?_isSome_iff.mpr ⟨c, hc, by rw [hr]; rfl⟩
    obtain ⟨r', hr'⟩ := Option.isSome_iff_exists.mp hsome
    obtain ⟨d, hd, hdr⟩ := List.exists_of_findSome?_eq_some hr'
    have hslots : c.slot = d.slot := (hslot c (by rw [hr]; rfl)).trans (hslot d (by rw [hdr]; rfl)).symm
    have hcd : c = d := List.inj_on_of_nodup_map hdistinct hc hd hslots
    rw [hr', ← hdr, ← hcd, hr]

/-- Calls for different slots bring as many arrays as their functions have buffers, and one for the module record. -/
theorem length_arrays (recordName : String) {calls : List Call} (hdistinct : (calls.map Call.slot).Nodup) :
    (calls.flatMap (Call.arrays recordName)).length = ((calls.filterMap Call.emission?).map (·.buffers.length)).sum +
      if (calls.findSome? Call.record?).isSome then 1 else 0 := by
  induction calls with
  | nil => rfl
  | cons c calls ih =>
    rw [List.map_cons, List.nodup_cons] at hdistinct
    rw [List.flatMap_cons, List.length_append, ih hdistinct.2]
    cases c with
    | function e emitted =>
      have hlength : ((Call.function e emitted).arrays recordName).length = e.buffers.length := List.length_map _
      rw [hlength, ← Nat.add_assoc]
      rfl
    | moduleRecord commonjs literals =>
      -- No call behind this one brings a module record again.
      have hnone : calls.findSome? Call.record? = none := by
        rw [List.findSome?_eq_none_iff]
        intro c hc
        cases c with
        | function => rfl
        | moduleRecord => exact absurd (List.mem_map_of_mem (f := Call.slot) hc) hdistinct.1
      simp only [Call.arrays, List.length_singleton, Call.emission?, List.filterMap_cons, Call.record?,
        List.findSome?_cons, hnone, Option.isSome_none, Option.isSome_some, Bool.false_eq_true, if_false, if_true]
      omega

/-! ## What a builder holds -/

/-- The main record of a program, with or without a module record. -/
def mainRecordWith (recordName : String) : Option (Bool × List Literal) → Program.Record
  | none => ⟨recordName, []⟩
  | some (commonjs, _) => ⟨recordName, [⟨"isCommonjs", .u8 (if commonjs then 1 else 0)⟩,
      ⟨"moduleRecordIdx", .literalArray (moduleRecordKey recordName)⟩]⟩

/-- A builder that holds what the given calls bring, which are for different slots. -/
structure Holds (o : Options) (calls : List Call) (b : Builder) : Prop where
  recordName : b.recordName = o.recordName
  commonjs : b.commonjs = (calls.findSome? Call.record?).map Prod.fst
  functions : Lists b.program.functions ((calls.filterMap Call.emission?).map fun e => (e.function.name, e.function))
  literalArrays : Lists b.program.literalArrays (calls.flatMap (Call.arrays o.recordName))
  strings : ∀ s, s ∈ b.program.strings ↔ ∃ e ∈ calls.filterMap Call.emission?, s ∈ e.strings
  records : ∀ name, b.program.records[name]? =
    if name = o.recordName then some (mainRecordWith o.recordName (calls.findSome? Call.record?)) else none

namespace Holds

variable {o : Options} {calls : List Call} {b : Builder}

theorem start (o : Options) : Holds o [] (.start o) where
  recordName := rfl
  commonjs := rfl
  functions := .empty
  literalArrays := .empty
  strings := by simp [Builder.start, Program.empty]
  records name := by
    simp only [Builder.start, Program.empty, Std.ExtTreeMap.getElem?_insert, Std.LawfulEqCmp.compare_eq_iff_eq,
      eq_comm (a := o.recordName)]
    simp [mainRecordWith, Program.Record.named]

theorem mem_functions (h : Holds o calls b) {name : String} :
    name ∈ b.program.functions ↔ some name ∈ calls.map Call.slot := by
  rw [h.functions.mem]
  simp only [List.map_map, List.mem_map, List.mem_filterMap, Function.comp_apply]
  constructor
  · intro hname
    obtain ⟨e, ⟨c, hc, he⟩, rfl⟩ := hname
    refine ⟨c, hc, ?_⟩
    cases c with
    | function => cases he; rfl
    | moduleRecord => cases he
  · intro hname
    obtain ⟨c, hc, hslot⟩ := hname
    cases c with
    | function e emitted => exact ⟨e, ⟨_, hc, rfl⟩, Option.some.inj hslot⟩
    | moduleRecord => cases hslot

theorem isSome_commonjs (h : Holds o calls b) : b.commonjs.isSome = true ↔ none ∈ calls.map Call.slot := by
  rw [h.commonjs, Option.isSome_map, isSome_record?]

/-- A call is refused where its slot is taken. -/
theorem perform (h : Holds o calls b) (c : Call) : b.perform c =
    if c.slot ∈ calls.map Call.slot then .error (c.breach o.recordName) else .ok (b.put c) := by
  cases c with
  | function e emitted =>
    simp only [Builder.perform, Call.slot, ← h.mem_functions]
    split
    next hname => simp [addFunction, hname, Call.breach]
    next hname => exact addFunction_eq_ok.mpr ⟨hname, rfl⟩
  | moduleRecord commonjs literals =>
    simp only [Builder.perform, Call.slot, ← h.isSome_commonjs]
    split
    next hsome => simp [addModuleRecord, hsome, Call.breach, h.recordName]
    next hnone => exact addModuleRecord_eq_ok.mpr ⟨by simpa using hnone, rfl⟩

theorem attempt (h : Holds o calls b) (c : Call) :
    b.attempt c = if c.slot ∈ calls.map Call.slot then b else b.put c := by
  rw [Builder.attempt, h.perform]
  by_cases hc : c.slot ∈ calls.map Call.slot <;> simp only [hc, if_true, if_false]

theorem putFunction (h : Holds o calls b) {e : Emission} (emitted : ∃ debug d, Draft.emit debug d = .ok e)
    (hnew : (Call.function e emitted).slot ∉ calls.map Call.slot) :
    Holds o (calls ++ [Call.function e emitted]) (b.putFunction e) := by
  have hemissions : (calls ++ [Call.function e emitted]).filterMap Call.emission? =
      calls.filterMap Call.emission? ++ [e] := by
    simp [Call.emission?]
  have hrecord : (calls ++ [Call.function e emitted]).findSome? Call.record? = calls.findSome? Call.record? := by
    simp [Call.record?]
  have hdisjoint : ∀ p ∈ calls.flatMap (Call.arrays o.recordName),
      ∀ q ∈ (Call.function e emitted).arrays o.recordName, p.1 ≠ q.1 := by
    intro p hp
    obtain ⟨c, hc, hp⟩ := List.mem_flatMap.mp hp
    exact Call.arrays_disjoint o.recordName (fun heq => hnew (heq ▸ List.mem_map_of_mem hc)) p hp
  refine ⟨h.recordName, hrecord ▸ h.commonjs, ?_, ?_, fun s => ?_, hrecord ▸ h.records⟩
  · rw [hemissions, List.map_append]
    exact h.functions.insert _ fun hmem => hnew (h.mem_functions.mp (h.functions.mem.mpr hmem))
  · rw [List.flatMap_append, List.flatMap_singleton]
    exact h.literalArrays.insertMany (Call.arrays_distinct o.recordName (.function e emitted)) hdisjoint
  · rw [hemissions]
    simp only [Builder.putFunction, Std.ExtTreeSet.mem_insertMany_list, h.strings, List.mem_append, List.mem_singleton,
      or_and_right, exists_or, exists_eq_left]
    simp

theorem putModuleRecord (h : Holds o calls b) (commonjs : Bool) (literals : List Literal)
    (hnew : (Call.moduleRecord commonjs literals).slot ∉ calls.map Call.slot) :
    Holds o (calls ++ [Call.moduleRecord commonjs literals]) (b.putModuleRecord commonjs literals) := by
  -- There is no module record yet, so the main record is still the empty one of the start.
  have hnone : calls.findSome? Call.record? = none := by
    rw [← Option.not_isSome_iff_eq_none, ← Option.isSome_map (f := Prod.fst), ← h.commonjs, h.isSome_commonjs]
    exact hnew
  have hemissions : (calls ++ [Call.moduleRecord commonjs literals]).filterMap Call.emission? =
      calls.filterMap Call.emission? := by
    simp [Call.emission?]
  have hrecord : (calls ++ [Call.moduleRecord commonjs literals]).findSome? Call.record? =
      some (commonjs, literals) := by
    simp [hnone, Call.record?]
  have hkey : moduleRecordKey o.recordName ∉ (calls.flatMap (Call.arrays o.recordName)).map Prod.fst := by
    intro hmem
    obtain ⟨p, hp, heq⟩ := List.mem_map.mp hmem
    obtain ⟨c, hc, hp⟩ := List.mem_flatMap.mp hp
    exact Call.arrays_disjoint o.recordName (fun hslot => hnew (hslot ▸ List.mem_map_of_mem hc)) p hp
      (moduleRecordKey o.recordName, literals) (by simp [Call.arrays]) heq
  refine ⟨h.recordName, by rw [hrecord]; rfl, hemissions ▸ h.functions, ?_, hemissions ▸ h.strings, fun name => ?_⟩
  · rw [List.flatMap_append, List.flatMap_singleton]
    simpa only [Builder.putModuleRecord, h.recordName, Call.arrays] using h.literalArrays.insert literals hkey
  · have hmain : b.mainRecord = ⟨o.recordName, []⟩ := by
      simp [mainRecord, h.recordName, h.records, hnone, mainRecordWith]
    simp only [Builder.putModuleRecord, hmain, h.recordName, Std.ExtTreeMap.getElem?_insert,
      Std.LawfulEqCmp.compare_eq_iff_eq, h.records, eq_comm (a := o.recordName), hrecord]
    split <;> rfl

/-- What an accepted call brings is added to what is there. -/
theorem put (h : Holds o calls b) (c : Call) (hnew : c.slot ∉ calls.map Call.slot) :
    Holds o (calls ++ [c]) (b.put c) := by
  cases c with
  | function e emitted => exact h.putFunction emitted hnew
  | moduleRecord commonjs literals => exact h.putModuleRecord commonjs literals hnew

end Holds

theorem run_snoc (b : Builder) (calls : List Call) (c : Call) : b.run (calls ++ [c]) = (b.run calls).attempt c := by
  simp [run]

/-- A run keeps what its accepted calls brought, and nothing else. -/
theorem holds_run (o : Options) (calls : List Call) : Holds o (accepted calls) ((Builder.start o).run calls) := by
  induction calls using List.reverseRecOn with
  | nil => exact .start o
  | append_singleton calls c ih =>
    rw [run_snoc, ih.attempt, accepted_snoc]
    simp only [mem_slots_accepted]
    by_cases hc : c.slot ∈ calls.map Call.slot
    · simpa only [hc, if_true] using ih
    · simpa only [hc, if_false] using ih.put c (mt (mem_slots_accepted calls c.slot).mp hc)

end Builder

/-- A program that has exactly the given functions, with their arrays and strings, and the module record if
there is one. -/
structure Program.Assembled (recordName : String) (emissions : List Emission) (record : Option (Bool × List Literal))
    (p : Program) : Prop where
  functions : ∀ name f, p.functions[name]? = some f ↔ ∃ e ∈ emissions, e.function = f ∧ f.name = name
  literalArrays : ∀ key literals, p.literalArrays[key]? = some literals ↔
    (∃ e ∈ emissions, ∃ b ∈ e.buffers, bufferKey e.function.name b.id = key ∧ b.literals = literals) ∨
      ∃ commonjs, record = some (commonjs, literals) ∧ moduleRecordKey recordName = key
  arrayCount : p.literalArrays.size = (emissions.map (·.buffers.length)).sum + if record.isSome then 1 else 0
  strings : ∀ s, s ∈ p.strings ↔ ∃ e ∈ emissions, s ∈ e.strings
  /-- The record that marks a CommonJS module takes the place of a main record of its name. -/
  records : ∀ name, p.records[name]? =
    if name = "_CommonJsRecord" ∧ record.map Prod.fst = some true then
      some ⟨"_CommonJsRecord", [⟨"isCommonJs", .u8 1⟩]⟩
    else if name = recordName then some (Builder.mainRecordWith recordName record)
    else none

namespace Builder

variable {o : Options} {calls : List Call} {b : Builder}

theorem finish_tables (b : Builder) : b.finish.functions = b.program.functions ∧
    b.finish.literalArrays = b.program.literalArrays ∧ b.finish.strings = b.program.strings := by
  unfold Builder.finish
  split <;> exact ⟨rfl, rfl, rfl⟩

/-- Finishing adds the mark of a CommonJS module to what a builder holds. -/
theorem Holds.finish (h : Holds o calls b) (hdistinct : (calls.map Call.slot).Nodup) :
    b.finish.Assembled o.recordName (calls.filterMap Call.emission?) (calls.findSome? Call.record?) where
  functions name f := by
    rw [(finish_tables b).1, h.functions.getElem?, List.mem_map]
    simp only [Prod.mk.injEq]
    constructor
    · intro hf
      obtain ⟨e, he, rfl, rfl⟩ := hf
      exact ⟨e, he, rfl, rfl⟩
    · intro hf
      obtain ⟨e, he, rfl, rfl⟩ := hf
      exact ⟨e, he, rfl, rfl⟩
  literalArrays key literals := by
    rw [(finish_tables b).2.1, h.literalArrays.getElem?]
    simp only [List.mem_flatMap, Call.mem_arrays, List.mem_filterMap, findSome?_record? hdistinct]
    constructor
    · intro hmem
      obtain ⟨c, hc, ⟨e, he, hb⟩ | ⟨commonjs, hr, hkey⟩⟩ := hmem
      · exact .inl ⟨e, ⟨c, hc, he⟩, hb⟩
      · exact .inr ⟨commonjs, ⟨c, hc, hr⟩, hkey⟩
    · intro hmem
      obtain ⟨e, ⟨c, hc, he⟩, hb⟩ | ⟨commonjs, ⟨c, hc, hr⟩, hkey⟩ := hmem
      · exact ⟨c, hc, .inl ⟨e, he, hb⟩⟩
      · exact ⟨c, hc, .inr ⟨commonjs, hr, hkey⟩⟩
  arrayCount := by
    rw [(finish_tables b).2.1, h.literalArrays.size, length_arrays _ hdistinct]
  strings s := by
    rw [(finish_tables b).2.2, h.strings]
  records name := by
    rw [← h.commonjs]
    unfold Builder.finish
    split
    next hc =>
      simp only [hc, and_true, Std.ExtTreeMap.getElem?_insert, Std.LawfulEqCmp.compare_eq_iff_eq, h.records,
        eq_comm (b := name)]
      rfl
    next hc =>
      have hnot : b.commonjs ≠ some true := hc
      simp only [hnot, and_false, if_false, h.records]

end Builder

end ScriptAssembly
