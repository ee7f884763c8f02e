import Mathlib.Data.List.Nodup
import ScriptAssembly.Program.Listing
import ScriptAssembly.Proofs.Texts
import ScriptAssembly.Proofs.Translation
/-
The line of an instruction says all there is to the instruction.

Offset and mnemonic are read from the front, up to the first colon and the
first blank. The mnemonic gives the opcode, and the opcode how many operands
follow and of which kinds. Names and keys are shown as they are, commas,
quotes and line feeds included, so a comma may belong to an operand. Still no
line has two readings: where there are two operands, one of them is a register
or an immediate, which holds no comma (`layout_cases`), so that the comma
between them is the first of all, or the last.
-/
namespace ScriptAssembly

/-! ## Mnemonics and layouts -/

namespace Opcode

theorem mem_all (op : Opcode) : op ∈ all := by
  cases op <;> decide

theorem mnemonic_inj {a b : Opcode} (h : a.mnemonic = b.mnemonic) : a = b := by
  have hnodup : (all.map mnemonic).Nodup := by decide +kernel
  exact List.inj_on_of_nodup_map hnodup (mem_all a) (mem_all b) h

/-- A mnemonic is a single word. -/
theorem ne_of_mem_mnemonic (op : Opcode) : ∀ c ∈ op.mnemonic.toList, c ≠ ' ' ∧ c ≠ '\n' := by
  have hall : (op.mnemonic.toList.all fun c => c != ' ' && c != '\n') = true := by
    cases op <;> decide +kernel
  simpa using hall

end Opcode

/-- The kinds of operands that are written as a numeral. -/
def OperandKind.IsNumeral (k : OperandKind) : Prop := k = .register ∨ k = .immediate

/-- An opcode has two operands at most, and where it has two, one of them is a numeral. -/
theorem Opcode.layout_cases (op : Opcode) :
    op.layout = [] ∨ (∃ k, op.layout = [k]) ∨ ∃ k l, op.layout = [k, l] ∧ (k.IsNumeral ∨ l.IsNumeral) := by
  cases op <;> simp [layout, OperandKind.IsNumeral]

/-! ## Instructions that are told apart -/

namespace Function

/-- Equal operands; doubles are told apart by their text alone. -/
inductive Operand.Alike : Operand → Operand → Prop
  | refl (x : Operand) : Alike x x
  | double {x y : Double} (text : x.text = y.text) : Alike (double x) (double y)

/-- An instruction with the operands that its opcode asks for. -/
def Instruction.Fits (i : Instruction) : Prop := i.operands.map Operand.kind = i.opcode.layout

instance (i : Instruction) : Decidable i.Fits :=
  inferInstanceAs (Decidable (i.operands.map Operand.kind = i.opcode.layout))

/-- Equal instructions, wherever in the source they come from. -/
structure Instruction.Alike (i j : Instruction) : Prop where
  opcode : i.opcode = j.opcode
  operands : List.Forall₂ Operand.Alike i.operands j.operands

end Function

namespace Listing

open Text

/-! ## Operands -/

theorem operand_alike {x y : Function.Operand} (h : x.Alike y) : operand x = operand y := by
  cases h with
  | refl => rfl
  | double htext => exact htext

/-- An operand is told by its text among those of its kind. -/
theorem alike_of_operand_eq {x y : Function.Operand} (hk : x.kind = y.kind) (h : operand x = operand y) :
    x.Alike y := by
  cases x with
  | register r =>
    cases y with
    | register s =>
      rw [UInt16.toNat_inj.mp (decimal_inj ((String.append_right_inj _).mp h))]
      exact .refl _
    | _ => cases hk
  | immediate v =>
    cases y with
    | immediate w =>
      rw [Int64.toInt_inj.mp (signedDecimal_inj h)]
      exact .refl _
    | _ => cases hk
  | double x =>
    cases y with
    | double y => exact .double h
    | _ => cases hk
  | string s =>
    cases y with
    | string t =>
      rw [quote_inj h]
      exact .refl _
    | _ => cases hk
  | function f =>
    cases y with
    | function g =>
      cases h
      exact .refl _
    | _ => cases hk
  | literalArray key =>
    cases y with
    | literalArray key' =>
      cases h
      exact .refl _
    | _ => cases hk
  | offset m =>
    cases y with
    | offset n =>
      rw [decimal_inj ((String.append_right_inj _).mp h)]
      exact .refl _
    | _ => cases hk

theorem comma_not_mem_operand {x : Function.Operand} (h : x.kind.IsNumeral) : ',' ∉ (operand x).toList := by
  cases x with
  | register r => simpa [operand] using not_mem_decimal (by decide) r.toNat
  | immediate v => exact not_mem_signedDecimal (by decide) (by decide) v.toInt
  | double | string | function | literalArray | offset => simp [OperandKind.IsNumeral, Function.Operand.kind] at h

/-- Two operands are told by their texts with a comma between them. -/
theorem alike_of_pair_eq {x x' y y' : Function.Operand} (hx : x.kind = x'.kind) (hy : y.kind = y'.kind)
    (hnumeral : x.kind.IsNumeral ∨ y.kind.IsNumeral)
    (h : ", ".intercalate [operand x, operand y] = ", ".intercalate [operand x', operand y']) :
    x.Alike x' ∧ y.Alike y' := by
  have hl : (operand x).toList ++ ',' :: ' ' :: (operand y).toList =
      (operand x').toList ++ ',' :: ' ' :: (operand y').toList := by
    simpa [String.toList_intercalate] using congrArg String.toList h
  obtain ⟨hfirst, hsecond⟩ : (operand x).toList = (operand x').toList ∧
      ' ' :: (operand y).toList = ' ' :: (operand y').toList := by
    rcases hnumeral with hn | hn
    · exact append_cons_inj_left (comma_not_mem_operand hn) (comma_not_mem_operand (hx ▸ hn)) hl
    · exact append_cons_inj_right (by simpa using comma_not_mem_operand hn)
        (by simpa using comma_not_mem_operand (hy ▸ hn)) hl
  exact ⟨alike_of_operand_eq hx (String.toList_inj.mp hfirst),
    alike_of_operand_eq hy (String.toList_inj.mp (List.cons.inj hsecond).2)⟩

/-- The operands of an opcode are told by their text. -/
theorem alike_of_operands_eq {op : Opcode} {xs ys : List Function.Operand}
    (hxs : xs.map Function.Operand.kind = op.layout) (hys : ys.map Function.Operand.kind = op.layout)
    (h : operands xs = operands ys) : List.Forall₂ Function.Operand.Alike xs ys := by
  rcases op.layout_cases with hop | ⟨k, hop⟩ | ⟨k, l, hop, hnumeral⟩ <;>
    rw [hop] at hxs hys
  · rw [List.map_eq_nil_iff.mp hxs, List.map_eq_nil_iff.mp hys]
    exact .nil
  · obtain ⟨x, rfl, hx⟩ := List.map_eq_singleton_iff.mp hxs
    obtain ⟨y, rfl, hy⟩ := List.map_eq_singleton_iff.mp hys
    have htext : operand x = operand y := by simpa [operands] using h
    exact .cons (alike_of_operand_eq (hx.trans hy.symm) htext) .nil
  · obtain ⟨x, xs, rfl, hx, hxs⟩ := List.map_eq_cons_iff.mp hxs
    obtain ⟨x', rfl, hx'⟩ := List.map_eq_singleton_iff.mp hxs
    obtain ⟨y, ys, rfl, hy, hys⟩ := List.map_eq_cons_iff.mp hys
    obtain ⟨y', rfl, hy'⟩ := List.map_eq_singleton_iff.mp hys
    subst hx hx'
    have htext : ", ".intercalate [operand x, operand x'] = ", ".intercalate [operand y, operand y'] := by
      simpa [operands] using h
    obtain ⟨hxy, hxy'⟩ := alike_of_pair_eq hy.symm hy'.symm hnumeral htext
    exact .cons hxy (.cons hxy' .nil)

theorem operands_alike {xs ys : List Function.Operand} (h : List.Forall₂ Function.Operand.Alike xs ys) :
    operands xs = operands ys := by
  have htexts : xs.map operand = ys.map operand := by
    induction h with
    | nil => rfl
    | cons hxy _ ih => rw [List.map_cons, List.map_cons, operand_alike hxy, ih]
  have hempty : xs.isEmpty = ys.isEmpty := by
    simpa using congrArg List.isEmpty htexts
  rw [operands, operands, htexts, hempty]

/-! ## Lines -/

theorem toList_instruction (o : Nat) (i : Function.Instruction) :
    (instruction false o i).toList = '\t' :: ((padStart 4 ' ' (decimal o)).toList ++
      ':' :: ' ' :: (i.opcode.mnemonic.toList ++ (operands i.operands ++ "\n").toList)) := by
  simp [instruction]

/-- Behind the mnemonic stands a blank, or the line ends. -/
theorem exists_toList_operands (xs : List Function.Operand) :
    ∃ c cs, (operands xs ++ "\n").toList = c :: cs ∧ ¬ (c ≠ ' ' ∧ c ≠ '\n') := by
  cases xs with
  | nil => exact ⟨'\n', [], rfl, by decide⟩
  | cons x xs =>
    refine ⟨' ', (", ".intercalate ((x :: xs).map operand) ++ "\n").toList, ?_, by decide⟩
    simp [operands]

theorem alike_of_instruction_eq {o o' : Nat} {i i' : Function.Instruction} (hi : i.Fits) (hi' : i'.Fits)
    (h : instruction false o i = instruction false o' i') : o = o' ∧ i.Alike i' := by
  have hl := congrArg String.toList h
  rw [toList_instruction, toList_instruction, List.cons.injEq] at hl
  obtain ⟨hoffset, hrest⟩ := append_cons_inj_left (not_mem_padStart_decimal (by decide) (by decide) 4 o)
    (not_mem_padStart_decimal (by decide) (by decide) 4 o') hl.2
  rw [List.cons.injEq] at hrest
  obtain ⟨c, cs, hcs, hc⟩ := exists_toList_operands i.operands
  obtain ⟨c', cs', hcs', hc'⟩ := exists_toList_operands i'.operands
  rw [hcs, hcs'] at hrest
  obtain ⟨hmnemonic, hoperands⟩ := append_cons_inj_of_forall i.opcode.ne_of_mem_mnemonic
    i'.opcode.ne_of_mem_mnemonic hc hc' hrest.2
  have hop : i.opcode = i'.opcode := Opcode.mnemonic_inj (String.toList_inj.mp hmnemonic)
  have htext : operands i.operands = operands i'.operands := by
    rw [← hcs, ← hcs', String.toList_inj] at hoperands
    exact (String.append_left_inj _).mp hoperands
  refine ⟨padStart_decimal_inj (String.toList_inj.mp hoffset), hop, ?_⟩
  exact alike_of_operands_eq hi (hi'.trans (hop ▸ rfl)) htext

theorem instruction_alike {o : Nat} {i i' : Function.Instruction} (h : i.Alike i') :
    instruction false o i = instruction false o i' := by
  simp only [instruction, h.opcode, operands_alike h.operands, Bool.false_eq_true, if_false]

end Listing

theorem Emission.fits_of_emit {debug : Bool} {d : Draft} {e : Emission} (h : d.emit debug = .ok e)
    {i : Function.Instruction} (hi : i ∈ e.function.instructions) : i.Fits := by
  obtain ⟨ids, hd⟩ := fromDraft_of_emit h
  obtain ⟨j, -, hj⟩ := exists_of_mem_forall₂ hd.makesInstructions hi
  exact hj.layout

/-- **A printed instruction can be read back.** Emission makes instructions that fit their opcodes, and of these, with
positions hidden, two have the same line just if they are alike and at the same offset. -/
theorem Listing.instruction_eq_iff :
    (∀ (debug : Bool) (d : Draft) (e : Emission), d.emit debug = .ok e → ∀ i ∈ e.function.instructions, i.Fits) ∧
      ∀ (o o' : Nat) (i i' : Function.Instruction), i.Fits → i'.Fits →
        (instruction false o i = instruction false o' i' ↔ o = o' ∧ i.Alike i') := by
  refine ⟨fun _ _ _ he _ => Emission.fits_of_emit he, fun o o' i i' hi hi' => ⟨alike_of_instruction_eq hi hi', ?_⟩⟩
  rintro ⟨rfl, halike⟩
  exact instruction_alike halike

theorem Listing.instruction_eq_iff_quirky :
    (∃ e, Emission.assortedDraft.emit true = .ok e ∧ e.function.instructions.length = 6 ∧
      ∀ i ∈ e.function.instructions, i.Fits) ∧
    -- two patterns that are not a number have one text, and positions are hidden
    instruction false 12 ⟨.fldai, [.double ⟨0x7ff8000000000000⟩], none⟩ =
      instruction false 12 ⟨.fldai, [.double ⟨0xfff0000000000001⟩], some ⟨3, 4⟩⟩ ∧
    -- a name is allowed to hold what looks like the rest of the line
    instruction false 7 ⟨.defineFunc, [.function "f, 1\n\t   8: ldai \"@", .immediate 1], none⟩ ≠
      instruction false 7 ⟨.defineFunc, [.function "f", .immediate 1], none⟩ := by
  refine ⟨exists_ok_and (by decide +kernel) fun e he => instruction_eq_iff.1 _ _ e he, ?_, ?_⟩
  · refine (instruction_eq_iff.2 12 12 _ _ (by decide) (by decide)).mpr ⟨rfl, rfl, .cons ?_ .nil⟩
    exact .double (by decide +kernel)
  · intro h
    obtain ⟨-, -, hoperands⟩ := (instruction_eq_iff.2 7 7 _ _ (by decide) (by decide)).mp h
    exact absurd (operand_alike (List.forall₂_cons.mp hoperands).1) (by decide)

end ScriptAssembly
