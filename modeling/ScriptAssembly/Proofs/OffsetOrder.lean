import Mathlib.Data.List.TakeWhile
import ScriptAssembly.Proofs.WordTable
/-
Positions come in the order of their offsets.

What stands between two offsets either has a newline, and then the later one is on
a later line, or has none, and then it is on the same line, behind the other by
the number of bytes between them (`behind_append`). So no two offsets have one
position, and the number of columns leads back to where the line starts. As
each byte ends at most one line, no line is left out.
-/
namespace ScriptAssembly

open LineTable (newline)

namespace Position

/-- A position in front of another one: on an earlier line, or earlier on the same line. -/
def Before (p q : Position) : Prop := p.line < q.line ∨ p.line = q.line ∧ p.column < q.column

theorem not_before_self {p : Position} : ¬ p.Before p := by
  simp only [Before]
  omega

variable {bytes front back : List UInt8} {a b : Nat}

/-! ## Order -/

/-- Bytes without a newline stay on the line. -/
theorem behind_append (h : newline ∉ back) :
    behind (front ++ back) = ⟨(behind front).line, (behind front).column + back.length⟩ := by
  have hkeep : ∀ b ∈ back.reverse, (b != newline) = true := by
    intro b hb
    rw [bne_iff_ne]
    rintro rfl
    exact h (List.mem_reverse.mp hb)
  simp only [behind, List.count_append, List.count_eq_zero.mpr h, List.reverse_append,
    List.takeWhile_append_of_pos hkeep, List.length_append, List.length_reverse, Nat.add_zero, Position.mk.injEq,
    true_and]
  omega

theorem before_append (h : back ≠ []) : (behind front).Before (behind (front ++ back)) := by
  by_cases hnewline : newline ∈ back
  · have hcount := List.count_pos_iff.mpr hnewline
    refine .inl ?_
    simp only [behind, List.count_append]
    omega
  · have hlength := List.length_pos_iff.mpr h
    rw [behind_append hnewline]
    exact .inr ⟨rfl, Nat.lt_add_of_pos_right hlength⟩

theorem before_of_lt (hab : a < b) (hb : b ≤ bytes.length) :
    (behind (bytes.take a)).Before (behind (bytes.take b)) := by
  have hsplit : bytes.take a ++ (bytes.take b).drop a = bytes.take b := by
    have htake : (bytes.take b).take a = bytes.take a := by rw [List.take_take, Nat.min_eq_left (Nat.le_of_lt hab)]
    rw [← htake, List.take_append_drop]
  rw [← hsplit]
  refine before_append (List.ne_nil_of_length_pos ?_)
  rw [List.length_drop, List.length_take]
  omega

theorem before_iff (ha : a ≤ bytes.length) (hb : b ≤ bytes.length) :
    (behind (bytes.take a)).Before (behind (bytes.take b)) ↔ a < b := by
  refine ⟨fun hbefore => ?_, fun hab => before_of_lt hab hb⟩
  rcases Nat.lt_trichotomy a b with hab | rfl | hba
  · exact hab
  · simp only [Before] at hbefore
    omega
  · have hafter := before_of_lt hba ha
    simp only [Before] at hbefore hafter
    omega

/-! ## Starts of lines -/

/-- Behind the last newline, the bytes are those of the last line. -/
theorem exists_lastLine (bytes : List UInt8) : ∃ front back, front ++ back = bytes ∧ newline ∉ back ∧
    back.length = (bytes.reverse.takeWhile (· != newline)).length := by
  refine ⟨(bytes.reverse.dropWhile (· != newline)).reverse, (bytes.reverse.takeWhile (· != newline)).reverse, ?_, ?_,
    List.length_reverse⟩
  · rw [← List.reverse_append, List.takeWhile_append_dropWhile, List.reverse_reverse]
  · rw [List.mem_reverse]
    intro hmem
    simpa using List.mem_takeWhile_imp hmem

/-- As many bytes back as there are columns in front, the line starts. -/
theorem behind_take_start {start : Nat}
    (h : start + (bytes.reverse.takeWhile (· != newline)).length = bytes.length) :
    behind (bytes.take start) = ⟨(behind bytes).line, 1⟩ := by
  obtain ⟨front, back, rfl, hnewline, hlength⟩ := exists_lastLine bytes
  have hstart : start = front.length := by
    rw [← hlength, List.length_append] at h
    omega
  have hbehind : behind (front ++ back) = ⟨(behind front).line, (behind front).column + back.length⟩ :=
    behind_append hnewline
  have hcolumn : (behind (front ++ back)).column = back.length + 1 := by rw [behind, hlength]
  rw [hstart, List.take_left, hbehind]
  rw [hbehind] at hcolumn
  cases hfront : behind front with
  | mk line column =>
    simp only [hfront] at hcolumn
    simp only [Position.mk.injEq, true_and]
    omega

/-! ## Lines -/

/-- The lines that are closed become more by one at a time. -/
theorem exists_count_take {closed : Nat} (h : closed ≤ bytes.count newline) :
    ∃ offset ≤ bytes.length, (bytes.take offset).count newline = closed := by
  induction bytes using List.reverseRecOn with
  | nil => exact ⟨0, Nat.le_refl 0, (Nat.le_zero.mp h).symm⟩
  | append_singleton bytes b ih =>
    rcases Nat.lt_or_ge (bytes.count newline) closed with hlt | hle
    · refine ⟨(bytes ++ [b]).length, Nat.le_refl _, ?_⟩
      rw [List.take_length]
      rw [List.count_append, List.count_singleton] at h ⊢
      split at h
      next hb =>
        rw [if_pos hb]
        omega
      next => omega
    · obtain ⟨offset, hoffset, hcount⟩ := ih hle
      refine ⟨offset, ?_, ?_⟩
      · rw [List.length_append]
        omega
      · rwa [List.take_append_of_le_length hoffset]

end Position

namespace WordTable

/-- A table with positions that come in the order of the offsets and lead back to them. -/
structure KeepsOrder (text : String) (t : WordTable) (locate : UInt32 → Position) : Prop where
  located : ∀ offset, t.locate offset = .ok (locate offset)
  /-- Without a limit, these are the positions in the line table. -/
  unlimited : ∀ offset, (LineTable.ofText text).locate offset.toNat = locate offset
  order : ∀ a ≤ t.length, ∀ b ≤ t.length, (locate a).Before (locate b) ↔ a < b
  distinct : ∀ a ≤ t.length, ∀ b ≤ t.length, locate a = locate b → a = b
  start : ∀ a ≤ t.length, ∃ start, t.starts[(locate a).line - 1]? = some start ∧
    locate start = ⟨(locate a).line, 1⟩ ∧ start.toNat + ((locate a).column - 1) = a.toNat
  bounds : ∀ offset, 1 ≤ (locate offset).line ∧ (locate offset).line ≤ t.lineCount ∧ 1 ≤ (locate offset).column
  lines : ∀ line, 1 ≤ line → line ≤ t.lineCount → ∃ a ≤ t.length, (locate a).line = line
  past : ∀ offset, t.length ≤ offset → locate offset = locate t.length

variable {bytes : List UInt8} {t : WordTable}

/-- The start of the line of an offset, with as many bytes behind it as there are columns in front. -/
theorem Holds.start_eq (h : t.Holds (LineTable.ofBytes bytes)) {offset : Nat} (hoffset : offset ≤ bytes.length) :
    ∃ start, t.starts[(Position.behind (bytes.take offset)).line - 1]? = some start ∧
      Position.behind (bytes.take start.toNat) = ⟨(Position.behind (bytes.take offset)).line, 1⟩ ∧
      start.toNat + ((Position.behind (bytes.take offset)).column - 1) = offset := by
  obtain ⟨start, hstart, hcolumn⟩ := h.exists_start offset
  have hbehind := Position.behind_take_start hcolumn
  have hlength : (bytes.take offset).length = offset := by rw [List.length_take, Nat.min_eq_left hoffset]
  rw [hlength] at hcolumn
  rw [List.take_take, Nat.min_eq_left (by omega)] at hbehind
  exact ⟨start, hstart, hbehind, hcolumn⟩

theorem Holds.keepsOrder {text : String} (h : t.Holds (LineTable.ofText text))
    (hsize : text.toUTF8.data.toList.length < UInt32.size - 1) :
    t.KeepsOrder text fun offset => Position.ofOffset text offset.toNat := by
  have hlength : t.length.toNat = text.toUTF8.data.toList.length := h.length.trans (LineTable.length_ofBytes _)
  have hle : ∀ a : UInt32, a ≤ t.length → a.toNat ≤ text.toUTF8.data.toList.length := fun a ha =>
    hlength ▸ UInt32.le_iff_toNat_le.mp ha
  have horder : ∀ a ≤ t.length, ∀ b ≤ t.length,
      (Position.ofOffset text a.toNat).Before (Position.ofOffset text b.toNat) ↔ a < b := fun a ha b hb =>
    (Position.before_iff (hle a ha) (hle b hb)).trans UInt32.lt_iff_toNat_lt.symm
  refine ⟨h.locate hsize, fun offset => LineTable.locate_ofText text offset.toNat, horder, fun a ha b hb heq => ?_,
    fun a ha => h.start_eq (hle a ha), fun offset => ⟨Nat.le_add_left .., ?_, Nat.le_add_left ..⟩,
    fun line hfirst hlast => ?_, fun offset hpast => ?_⟩
  · have hab : ¬ a < b := by
      rw [← horder a ha b hb, heq]
      exact Position.not_before_self
    have hba : ¬ b < a := by
      rw [← horder b hb a ha, heq]
      exact Position.not_before_self
    rw [UInt32.lt_iff_toNat_lt] at hab hba
    exact UInt32.toNat_inj.mp (by omega)
  · rw [h.lineCount]
    exact Nat.succ_le_succ (List.Sublist.count_le _ (List.take_sublist ..))
  · rw [h.lineCount] at hlast
    obtain ⟨offset, hoffset, hcount⟩ := Position.exists_count_take (Nat.sub_le_of_le_add hlast)
    have hnumber : offset.toUInt32.toNat = offset := toNat_toUInt32 (by omega)
    refine ⟨offset.toUInt32, ?_, ?_⟩
    · rwa [UInt32.le_iff_toNat_le, hnumber, hlength]
    · rw [hnumber, Position.ofOffset, Position.behind, hcount]
      exact Nat.sub_add_cancel hfirst
  · have hend : text.toUTF8.data.toList.length ≤ offset.toNat := hlength ▸ UInt32.le_iff_toNat_le.mp hpast
    simp only [Position.ofOffset, hlength, List.take_of_length_le hend, List.take_length]

/-- **Positions are in the order of their offsets**, each leads back to its offset, and no line is left out. -/
theorem exists_keepsOrder {text : String} (h : text.utf8ByteSize < 4294967295) :
    ∃ t locate, ofText text = .ok t ∧ t.length.toNat = text.utf8ByteSize ∧ t.KeepsOrder text locate := by
  have hsize : text.toUTF8.data.toList.length < UInt32.size - 1 := h
  obtain ⟨t, ht, hholds⟩ := exists_ofBytes hsize
  exact ⟨t, _, ht, hholds.length.trans (LineTable.length_ofBytes _), hholds.keepsOrder hsize⟩

/-- Both sides of a newline, the end of the text, and an offset past it. -/
theorem exists_keepsOrder_newline : ("a\nb" : String).utf8ByteSize < 4294967295 ∧
    ∃ t, ∃ locate : UInt32 → Position, ofText "a\nb" = .ok t ∧
      [0, 1, 2, 3, 9].map locate = [⟨1, 1⟩, ⟨1, 2⟩, ⟨2, 1⟩, ⟨2, 2⟩, ⟨2, 2⟩] ∧
      (locate 1).Before (locate 2) ∧ ∃ offset ≤ t.length, (locate offset).line = 2 := by
  have hsize : ("a\nb" : String).utf8ByteSize < 4294967295 := by decide +kernel
  obtain ⟨t, locate, ht, hlength, h⟩ := exists_keepsOrder hsize
  have hend : t.length = 3 := UInt32.toNat_inj.mp hlength
  have hlocate : [0, 1, 2, 3, 9].map locate = [⟨1, 1⟩, ⟨1, 2⟩, ⟨2, 1⟩, ⟨2, 2⟩, ⟨2, 2⟩] := by
    simp only [List.map_cons, List.map_nil, ← h.unlimited]
    decide +kernel
  have hbefore : (locate 1).Before (locate 2) := by
    rw [h.order 1 (by rw [hend]; decide) 2 (by rw [hend]; decide)]
    decide
  have hsecond : (locate 2).line = 2 := by
    rw [← h.unlimited]
    decide +kernel
  have hlast : 2 ≤ t.lineCount := hsecond ▸ (h.bounds 2).2.1
  exact ⟨hsize, t, locate, ht, hlocate, hbefore, h.lines 2 (by decide) hlast⟩

end WordTable

end ScriptAssembly
