import ScriptAssembly.Literal.Basic
import ScriptAssembly.Proofs.Texts
/-
Keys of literal arrays are told apart by nothing but their text, and that is
enough: a buffer's key ends in a number sign and digits, so its last number
sign is the one behind the function's name, whatever the name holds; and no
such key ends like that of a module record.
-/
namespace ScriptAssembly

theorem toList_bufferKey (function : String) (id : UInt32) :
    (bufferKey function id).toList = function.toList ++ '#' :: (Text.decimal id.toNat).toList := by
  simp [bufferKey]

/-- A buffer's key determines the function and the id. -/
theorem bufferKey_inj {f g : String} {i j : UInt32} (h : bufferKey f i = bufferKey g j) : f = g ∧ i = j := by
  have hl := congrArg String.toList h
  rw [toList_bufferKey, toList_bufferKey] at hl
  obtain ⟨hf, hi⟩ := append_cons_inj_right (Text.not_mem_decimal (by decide) _) (Text.not_mem_decimal (by decide) _) hl
  exact ⟨String.toList_inj.mp hf, UInt32.toNat_inj.mp (Text.decimal_inj (String.toList_inj.mp hi))⟩

/-- No buffer has the key of a module record. -/
theorem bufferKey_ne_moduleRecordKey (f : String) (i : UInt32) (r : String) : bufferKey f i ≠ moduleRecordKey r := by
  intro h
  have hl : (Text.decimal i.toNat).toList.getLast?.getD '#' = 'd' := by
    simpa [toList_bufferKey, moduleRecordKey, List.getLast?_append, List.getLast?_cons] using
      congrArg (fun s => s.toList.getLast?) h
  cases hc : (Text.decimal i.toNat).toList.getLast? with
  | none => simp [hc] at hl
  | some c =>
    have hd : c = 'd' := by simpa [hc] using hl
    exact absurd (Text.isDigit_of_mem_decimal (List.mem_of_getLast? hc)) (by subst hd; decide)

/-- **No two literal arrays of a program have one key,** whatever the names of functions and records hold. -/
theorem arrayKeys_apart (f : String) (i : UInt32) :
    (∀ g j, bufferKey f i = bufferKey g j ↔ f = g ∧ i = j) ∧ ∀ r, bufferKey f i ≠ moduleRecordKey r := by
  refine ⟨fun g j => ⟨bufferKey_inj, ?_⟩, bufferKey_ne_moduleRecordKey f i⟩
  rintro ⟨rfl, rfl⟩
  rfl

/-- Number signs and digits of a name are not taken for those behind it. -/
example : bufferKey "a#1" 2 ≠ bufferKey "a" 12 ∧ bufferKey "a" 1 ≠ bufferKey "a#1" 1 ∧ bufferKey "" 0 = "#0" := by
  decide +kernel

end ScriptAssembly
