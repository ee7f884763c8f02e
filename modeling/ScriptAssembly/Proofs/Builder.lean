import ScriptAssembly.Program.Builder
import ScriptAssembly.Proofs.Keys
/-
What a builder's calls put into the program, apart from the question whether
they are allowed: `putFunction` and `putModuleRecord`. Functions of different
names can be put in either order (`putFunction_comm`), and so can the module
record and any function (`putModuleRecord_putFunction`), because no two of
them share a key of a literal array.
-/
namespace ScriptAssembly

/-- Entries under different keys, as insertions into a table ask for them. -/
theorem pairwise_compare_ne {α : Type} {entries : List (String × α)} (h : (entries.map Prod.fst).Nodup) :
    entries.Pairwise fun p q => ¬ compare p.1 q.1 = .eq := by
  rw [List.Nodup, List.pairwise_map] at h
  exact h.imp fun hne heq => hne (Std.LawfulEqCmp.compare_eq_iff_eq.mp heq)

theorem contains_keys_eq_false {α : Type} {entries : List (String × α)} {key : String} (h : ∀ p ∈ entries, key ≠ p.1) :
    (entries.map Prod.fst).contains key = false := by
  simp only [List.contains_eq_mem, decide_eq_false_iff_not, List.mem_map, not_exists, not_and]
  exact fun p hp heq => h p hp heq.symm

/-- Insertions under different keys can be made in either order. -/
theorem insertMany_comm {α : Type} {m : Std.ExtTreeMap String α} {as bs : List (String × α)}
    (h : ∀ p ∈ as, ∀ q ∈ bs, p.1 ≠ q.1) : (m.insertMany as).insertMany bs = (m.insertMany bs).insertMany as := by
  ext1 k
  by_cases hk : k ∈ as.map Prod.fst
  · obtain ⟨p, hp, rfl⟩ := List.mem_map.mp hk
    have hb := contains_keys_eq_false (h p hp)
    rw [Std.ExtTreeMap.getElem?_insertMany_list_of_contains_eq_false hb, Std.ExtTreeMap.getElem?_insertMany_list,
      Std.ExtTreeMap.getElem?_insertMany_list, Std.ExtTreeMap.getElem?_insertMany_list_of_contains_eq_false hb]
  · have ha : (as.map Prod.fst).contains k = false := by simpa using hk
    rw [Std.ExtTreeMap.getElem?_insertMany_list_of_contains_eq_false ha, Std.ExtTreeMap.getElem?_insertMany_list,
      Std.ExtTreeMap.getElem?_insertMany_list_of_contains_eq_false ha, Std.ExtTreeMap.getElem?_insertMany_list]

namespace Builder

/-- The builder with an emitted function, whatever it held under that name. -/
def putFunction (b : Builder) (e : Emission) : Builder :=
  { b with
    program := { b.program with
      functions := b.program.functions.insert e.function.name e.function
      literalArrays := b.program.literalArrays.insertMany (keyedArrays e)
      strings := b.program.strings.insertMany e.strings.toList } }

/-- The builder with a module record, whether or not it had one. -/
def putModuleRecord (b : Builder) (commonjs : Bool) (literals : List Literal) : Builder :=
  let key := moduleRecordKey b.recordName
  let main := (b.mainRecord.addField commonjsField (.u8 (if commonjs then 1 else 0))).addField
    moduleRecordField (.literalArray key)
  { b with
    program := { b.program with
      literalArrays := b.program.literalArrays.insert key literals
      records := b.program.records.insert b.recordName main }
    commonjs := some commonjs }

/-- A function is taken where its name is new. -/
theorem addFunction_eq_ok {b b' : Builder} {e : Emission} :
    b.addFunction e = .ok b' ↔ e.function.name ∉ b.program.functions ∧ b.putFunction e = b' := by
  unfold addFunction putFunction
  by_cases h : e.function.name ∈ b.program.functions
  · simp [h]
  · simp only [h, if_false, not_false_eq_true, true_and, Except.ok.injEq]

/-- A function is refused where its name is taken. -/
theorem addFunction_eq_error {b : Builder} {e : Emission} {breach : Breach} :
    b.addFunction e = .error breach ↔
      e.function.name ∈ b.program.functions ∧ breach = .functionTwice e.function.name := by
  unfold addFunction
  by_cases h : e.function.name ∈ b.program.functions
  · simp [h, eq_comm]
  · simp [h]

/-- The module record is taken where there is none. -/
theorem addModuleRecord_eq_ok {b b' : Builder} {commonjs : Bool} {literals : List Literal} :
    b.addModuleRecord commonjs literals = .ok b' ↔
      b.commonjs = none ∧ b.putModuleRecord commonjs literals = b' := by
  unfold addModuleRecord putModuleRecord
  cases h : b.commonjs with
  | none => simp only [Option.isSome_none, Bool.false_eq_true, if_false, true_and, Except.ok.injEq]
  | some c => simp

theorem mem_putFunction_functions {b : Builder} {e : Emission} {name : String} :
    name ∈ (b.putFunction e).program.functions ↔ e.function.name = name ∨ name ∈ b.program.functions := by
  simp [putFunction]

theorem mem_keyedArrays {e : Emission} {p : String × List Literal} (h : p ∈ keyedArrays e) :
    ∃ id, p.1 = bufferKey e.function.name id := by
  obtain ⟨b, _, rfl⟩ := List.mem_map.mp h
  exact ⟨b.id, rfl⟩

/-- Buffers of different ids are kept under different keys. -/
theorem keyedArrays_distinct {e : Emission} (h : (e.buffers.map (·.id)).Nodup) :
    ((keyedArrays e).map Prod.fst).Nodup := by
  rw [List.Nodup, List.pairwise_map] at h
  rw [keyedArrays, List.map_map, List.Nodup, List.pairwise_map]
  exact h.imp fun hne heq => hne (bufferKey_inj heq).2

theorem keyedArrays_ne_moduleRecordKey {e : Emission} (recordName : String) :
    ∀ p ∈ keyedArrays e, p.1 ≠ moduleRecordKey recordName := by
  intro p hp
  obtain ⟨id, hid⟩ := mem_keyedArrays hp
  exact hid ▸ bufferKey_ne_moduleRecordKey _ _ _

theorem keyedArrays_disjoint {d e : Emission} (h : d.function.name ≠ e.function.name) :
    ∀ p ∈ keyedArrays d, ∀ q ∈ keyedArrays e, p.1 ≠ q.1 := by
  intro p hp q hq he
  obtain ⟨i, hi⟩ := mem_keyedArrays hp
  obtain ⟨j, hj⟩ := mem_keyedArrays hq
  exact h (bufferKey_inj (hi ▸ hj ▸ he)).1

/-- **Functions of different names** can be put in either order. -/
theorem putFunction_comm {b : Builder} {d e : Emission} (h : d.function.name ≠ e.function.name) :
    (b.putFunction d).putFunction e = (b.putFunction e).putFunction d := by
  have hf : (b.program.functions.insert d.function.name d.function).insert e.function.name e.function =
      (b.program.functions.insert e.function.name e.function).insert d.function.name d.function := by
    ext1 k
    simp only [Std.ExtTreeMap.getElem?_insert, Std.LawfulEqCmp.compare_eq_iff_eq]
    by_cases hk : e.function.name = k
    · subst hk; simp [h]
    · simp [hk]
  have hs : (b.program.strings.insertMany d.strings.toList).insertMany e.strings.toList =
      (b.program.strings.insertMany e.strings.toList).insertMany d.strings.toList := by
    ext1 s
    simp only [Std.ExtTreeSet.mem_insertMany_list, or_assoc]
    rw [or_comm (a := d.strings.toList.contains s = true)]
  simp only [putFunction, hf, hs, insertMany_comm (keyedArrays_disjoint h)]

/-- **The module record** and a function can be put in either order. -/
theorem putModuleRecord_putFunction (b : Builder) (e : Emission) (commonjs : Bool) (literals : List Literal) :
    (b.putFunction e).putModuleRecord commonjs literals = (b.putModuleRecord commonjs literals).putFunction e := by
  have ha : (b.program.literalArrays.insertMany (keyedArrays e)).insert (moduleRecordKey b.recordName) literals =
      (b.program.literalArrays.insert (moduleRecordKey b.recordName) literals).insertMany (keyedArrays e) := by
    rw [← Std.ExtTreeMap.insertMany_list_singleton, ← Std.ExtTreeMap.insertMany_list_singleton]
    refine insertMany_comm fun p hp q hq => ?_
    rw [List.mem_singleton.mp hq]
    exact keyedArrays_ne_moduleRecordKey _ p hp
  simp only [putFunction, putModuleRecord, mainRecord, ha]

end Builder

end ScriptAssembly
