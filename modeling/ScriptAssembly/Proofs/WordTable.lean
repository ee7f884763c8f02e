import Mathlib.Data.UInt
import ScriptAssembly.Proofs.Except
import ScriptAssembly.Proofs.Positions
import ScriptAssembly.Source.WordTable
/-
Line tables in words agree with counting.

For a text that is short enough, a table in words holds the starts of the line
table (`Holds`), so its search is the search there. What could go wrong does not:
some line starts up to every offset, since the first one starts at zero; the line
that is found is in the table and starts up to the offset; and no line number and
no column is more than one above the number of bytes. So it does not matter that
emission does not check (`position_wrapped`). In a longer text it does.
-/
namespace ScriptAssembly

/-! ## Words -/

namespace Word

theorem exists_add {m n : UInt32} (h : m.toNat + n.toNat < UInt32.size) :
    ∃ sum, add m n = .ok sum ∧ sum.toNat = m.toNat + n.toNat := by
  refine ⟨m + n, if_pos h, ?_⟩
  rw [UInt32.toNat_add]
  exact Nat.mod_eq_of_lt h

theorem exists_sub {m n : UInt32} (h : n.toNat ≤ m.toNat) :
    ∃ difference, sub m n = .ok difference ∧ difference.toNat = m.toNat - n.toNat := by
  have hle : n ≤ m := UInt32.le_iff_toNat_le.mpr h
  exact ⟨m - n, if_pos hle, UInt32.toNat_sub_of_le m n hle⟩

theorem predecessor_succ (n : Nat) : predecessor (n + 1) = .ok n := if_pos (Nat.le_add_left 1 n)

theorem eq_of_ite_eq_ok {α : Type} {c : Prop} [Decidable c] {x y : α} {otherwise : Breach}
    (h : (if c then .ok x else .error otherwise) = Except.ok y) : x = y := by
  split at h
  · exact Except.ok.inj h
  · cases h

theorem eq_of_add_eq_ok {m n sum : UInt32} (h : add m n = .ok sum) : m + n = sum := eq_of_ite_eq_ok h

theorem eq_of_sub_eq_ok {m n difference : UInt32} (h : sub m n = .ok difference) : m - n = difference :=
  eq_of_ite_eq_ok h

theorem eq_of_predecessor_eq_ok {m n : Nat} (h : predecessor m = .ok n) : m - 1 = n := eq_of_ite_eq_ok h

end Word

theorem bytes_replicate (n : Nat) :
    (String.ofList (List.replicate n 'a')).toUTF8.data.toList = List.replicate n (0x61 : UInt8) := by
  have hbyte : String.utf8EncodeChar 'a' = [0x61] := by decide
  rw [String.toUTF8, String.toByteArray_ofList, List.utf8Encode, List.flatMap_replicate, hbyte, List.data_toByteArray,
    List.toList_toArray]
  exact List.flatten_replicate_singleton

/-! ## The starts of lines -/

/-- The first line starts at zero, and each other one behind a newline. -/
theorem LineTable.toList_starts (bytes : List UInt8) : (ofBytes bytes).starts.toList =
    0 :: (bytes.zipIdx.filter (·.1 == newline)).map (·.2 + 1) := by
  induction bytes using List.reverseRecOn with
  | nil => rfl
  | append_singleton bytes b ih =>
    rw [starts_concat, List.zipIdx_append, List.filter_append, List.map_append, ← List.cons_append, ← ih]
    by_cases hb : b = newline <;> simp [hb]

/-- Lines start one behind another. -/
theorem LineTable.pairwise_starts (bytes : List UInt8) : (ofBytes bytes).starts.toList.Pairwise (· < ·) := by
  induction bytes using List.reverseRecOn with
  | nil => simp [ofBytes, empty]
  | append_singleton bytes b ih =>
    rw [starts_concat]
    split
    · rw [Array.toList_push, List.pairwise_append]
      refine ⟨ih, List.pairwise_singleton .., fun start hstart last hlast => ?_⟩
      rw [List.mem_singleton.mp hlast]
      exact Nat.lt_succ_of_le (starts_le (Array.mem_toList_iff.mp hstart))
    · exact ih

namespace WordTable

/-- A table in words that has the numbers of a line table. -/
structure Holds (t : WordTable) (l : LineTable) : Prop where
  starts : t.starts.map UInt32.toNat = l.starts
  length : t.length.toNat = l.length

variable {bytes : List UInt8}

theorem toNat_toUInt32 {n : Nat} (h : n < UInt32.size) : n.toUInt32.toNat = n := UInt32.toNat_ofNat_of_lt h

/-- In a text that is short enough, there is room for the offset behind each byte. -/
theorem exists_ofBytes (h : bytes.length < UInt32.size - 1) :
    ∃ t, ofBytes bytes = .ok t ∧ t.Holds (LineTable.ofBytes bytes) := by
  have hsum : ∀ p ∈ bytes.zipIdx.filter (·.1 == LineTable.newline),
      ∃ sum, Word.add p.2.toUInt32 1 = .ok sum ∧ sum.toNat = p.2 + 1 := by
    intro p hp
    have hlt := (List.mem_zipIdx (List.mem_of_mem_filter hp)).2.1
    have hnumber : p.2.toUInt32.toNat = p.2 := toNat_toUInt32 (by omega)
    obtain ⟨sum, hadd, hsum⟩ := Word.exists_add (m := p.2.toUInt32) (n := 1) (by rw [hnumber, UInt32.toNat_one]; omega)
    exact ⟨sum, hadd, by rw [hsum, hnumber, UInt32.toNat_one]⟩
  obtain ⟨starts, hstarts, hview⟩ := exists_mapM_eq_ok hsum
  refine ⟨⟨(0 :: starts).toArray, bytes.length.toUInt32⟩, bind_eq_ok.mpr ⟨starts, hstarts, rfl⟩, ?_, ?_⟩
  · rw [← Array.toList_inj, LineTable.toList_starts, ← hview]
    simp
  · rw [LineTable.length_ofBytes]
    exact toNat_toUInt32 (by omega)

/-- The line of an offset is in the table, and starts behind the last newline in front of the offset. -/
theorem Holds.exists_start {t : WordTable} (h : t.Holds (LineTable.ofBytes bytes)) (offset : Nat) :
    ∃ start, t.starts[(bytes.take offset).count LineTable.newline]? = some start ∧
      start.toNat + ((bytes.take offset).reverse.takeWhile (· != LineTable.newline)).length =
        (bytes.take offset).length := by
  obtain ⟨start, hstart, hcolumn⟩ := LineTable.start_take bytes offset
  rw [← h.starts, Array.getElem?_map, Option.map_eq_some_iff] at hstart
  obtain ⟨word, hword, rfl⟩ := hstart
  exact ⟨word, hword, hcolumn⟩

/-- The position of an offset is found without a breach. -/
theorem Holds.locate {t : WordTable} (h : t.Holds (LineTable.ofBytes bytes)) (hlength : bytes.length < UInt32.size - 1)
    (offset : UInt32) : t.locate offset = .ok (.behind (bytes.take offset.toNat)) := by
  have hoffset : (min offset t.length).toNat = (bytes.take offset.toNat).length := by
    rw [UInt32.toNat_min, h.length, LineTable.length_ofBytes, List.length_take]
  have hle : (bytes.take offset.toNat).length ≤ bytes.length := List.length_take_le' ..
  have hline : (bytes.take offset.toNat).count LineTable.newline ≤ (bytes.take offset.toNat).length :=
    List.count_le_length
  obtain ⟨first, hfirst, hcolumn⟩ := h.exists_start offset.toNat
  have hcount : t.countUpTo (min offset t.length) = (bytes.take offset.toNat).count LineTable.newline + 1 := by
    rw [← LineTable.countUpTo_take, countUpTo]
    simp only [hoffset, h.starts]
  have hnumber : ((bytes.take offset.toNat).count LineTable.newline).toUInt32.toNat =
      (bytes.take offset.toNat).count LineTable.newline := toNat_toUInt32 (by omega)
  obtain ⟨column, hsub, hdifference⟩ := Word.exists_sub (m := min offset t.length) (n := first) (by omega)
  obtain ⟨line, haddLine, hlineSum⟩ := Word.exists_add
    (m := ((bytes.take offset.toNat).count LineTable.newline).toUInt32) (n := 1) (by rw [UInt32.toNat_one]; omega)
  obtain ⟨next, haddColumn, hcolumnSum⟩ := Word.exists_add (m := column) (n := 1) (by rw [UInt32.toNat_one]; omega)
  have hfound : t.start ((bytes.take offset.toNat).count LineTable.newline) = .ok first := by rw [start, hfirst]
  simp only [WordTable.locate, bind_eq_ok, pure_eq_ok]
  refine ⟨_, by rw [hcount, Word.predecessor_succ], _, hfound, _, hsub, _, haddLine, _, haddColumn, ?_⟩
  rw [Position.behind, Position.mk.injEq, hlineSum, hcolumnSum, hnumber, UInt32.toNat_one]
  omega

theorem Holds.pairwise {t : WordTable} (h : t.Holds (LineTable.ofBytes bytes)) : t.starts.toList.Pairwise (· < ·) := by
  have hpairwise := LineTable.pairwise_starts bytes
  rw [← h.starts, Array.toList_map, List.pairwise_map] at hpairwise
  exact hpairwise.imp fun hlt => UInt32.lt_iff_toNat_lt.mpr hlt

theorem Holds.first {t : WordTable} (h : t.Holds (LineTable.ofBytes bytes)) : t.starts[0]? = some 0 := by
  have hfirst : (t.starts.map UInt32.toNat)[0]? = some 0 := by
    rw [h.starts, ← Array.getElem?_toList, LineTable.toList_starts]
    rfl
  rw [Array.getElem?_map, Option.map_eq_some_iff] at hfirst
  obtain ⟨start, hstart, hzero⟩ := hfirst
  rw [hstart, UInt32.toNat_inj.mp (hzero.trans UInt32.toNat_zero.symm)]

theorem Holds.lineCount {t : WordTable} (h : t.Holds (LineTable.ofBytes bytes)) :
    t.lineCount = bytes.count LineTable.newline + 1 := by
  rw [WordTable.lineCount, ← Array.size_map (f := UInt32.toNat), h.starts, LineTable.size_starts]

/-- A table that tells the lines of a text as counting does. -/
structure Agrees (text : String) (t : WordTable) : Prop where
  lineCount : t.lineCount = text.toUTF8.data.toList.count LineTable.newline + 1
  locate : ∀ offset : UInt32, t.locate offset = .ok (Position.ofOffset text offset.toNat)
  /-- The search is among starts of which the first is zero, and which increase from there. -/
  first : t.starts[0]? = some 0
  increasing : t.starts.toList.Pairwise (· < ·)
  /-- Without a limit, the same numbers are in the line table and found by it. -/
  holds : t.Holds (LineTable.ofText text)
  unlimited : ∀ offset : Nat, (LineTable.ofText text).locate offset = Position.ofOffset text offset

/-- **A text of fewer than 2^32 - 1 bytes has a table in words**, and each position in it is found. -/
theorem exists_agrees {text : String} (h : text.utf8ByteSize < 4294967295) :
    ∃ t, ofText text = .ok t ∧ t.Agrees text := by
  have hlength : text.toUTF8.data.toList.length < UInt32.size - 1 := h
  obtain ⟨t, ht, hholds⟩ := exists_ofBytes hlength
  exact ⟨t, ht, hholds.lineCount, hholds.locate hlength, hholds.first, hholds.pairwise, hholds,
    LineTable.locate_ofText text⟩

/-- Two characters of two bytes, a carriage return, and a newline at the end. -/
theorem exists_agrees_multibyte : ("é\r\naé\n" : String).utf8ByteSize < 4294967295 ∧
    ∃ t, ofText "é\r\naé\n" = .ok t ∧ t.lineCount = 3 ∧
      [0, 1, 3, 4, 6, 8, 4294967295].map t.locate =
        [.ok ⟨1, 1⟩, .ok ⟨1, 2⟩, .ok ⟨1, 4⟩, .ok ⟨2, 1⟩, .ok ⟨2, 3⟩, .ok ⟨3, 1⟩, .ok ⟨3, 1⟩] := by
  have hsize : ("é\r\naé\n" : String).utf8ByteSize < 4294967295 := by decide +kernel
  obtain ⟨t, ht, h⟩ := exists_agrees hsize
  refine ⟨hsize, t, ht, h.lineCount.trans (by decide +kernel), ?_⟩
  simp only [List.map_cons, List.map_nil, h.locate]
  decide +kernel

/-! ## Without checks -/

theorem wrapped_of_ofText {text : String} {t : WordTable} (h : ofText text = .ok t) : wrapped text = t := by
  simp only [ofText, ofBytes, bind_eq_ok, pure_eq_ok] at h
  obtain ⟨starts, hstarts, rfl⟩ := h
  have hsums := (mapM_eq_ok.mp hstarts).imp fun _ _ => Word.eq_of_add_eq_ok
  rw [← List.forall₂_map_left_iff (R := Eq), List.forall₂_eq_eq_eq] at hsums
  rw [wrapped, ← hsums]

theorem position_of_locate {t : WordTable} {offset : UInt32} {p : Position} (h : t.locate offset = .ok p) :
    t.position offset.toNat = p := by
  simp only [locate, bind_eq_ok, pure_eq_ok] at h
  obtain ⟨line, hline, start, hstart, column, hcolumn, number, hnumber, next, hnext, rfl⟩ := h
  have hmin : (min offset.toNat t.length.toNat).toUInt32 = min offset t.length := by
    rw [← UInt32.toNat_min]
    exact UInt32.ofNat_toNat
  have hget : t.starts[line]?.getD 0 = start := by
    unfold WordTable.start at hstart
    split at hstart
    next found hfound =>
      rw [hfound]
      exact Except.ok.inj hstart
    next => cases hstart
  simp only [position, hmin, Word.eq_of_predecessor_eq_ok hline, hget, Word.eq_of_sub_eq_ok hcolumn,
    Word.eq_of_add_eq_ok hnumber, Word.eq_of_add_eq_ok hnext]

/-- **In a text that is short enough** no sum is too high, so positions are those of counting. -/
theorem position_wrapped {text : String} (h : text.utf8ByteSize < 4294967295) (offset : Nat) :
    (wrapped text).position offset = .ofOffset text offset := by
  have hlength : text.toUTF8.data.toList.length < UInt32.size - 1 := h
  obtain ⟨t, ht, hholds⟩ := exists_ofBytes hlength
  have hsize : t.length.toNat = text.toUTF8.data.toList.length := hholds.length.trans (LineTable.length_ofBytes _)
  -- The offset is a word once it is cut off at the end of the text.
  have hword : (min offset t.length.toNat).toUInt32.toNat = min offset t.length.toNat :=
    toNat_toUInt32 (Nat.lt_of_le_of_lt (Nat.min_le_right ..) t.length.toNat_lt)
  have hposition := position_of_locate (hholds.locate hlength (min offset t.length.toNat).toUInt32)
  rw [hword] at hposition
  calc (wrapped text).position offset
      = t.position (min offset t.length.toNat) := by
        rw [wrapped_of_ofText ht, position, position, Nat.min_assoc, Nat.min_self]
    _ = .ofOffset text offset := by
        rw [hposition, hsize, Position.ofOffset, ← List.take_eq_take_min]

/-- A text of one long line whose length is no word. -/
theorem wrapped_replicate (n : Nat) :
    wrapped (String.ofList (List.replicate n 'a')) = ⟨#[0], n.toUInt32⟩ := by
  have hnewlines : ((List.replicate n (0x61 : UInt8)).zipIdx.filter (·.1 == LineTable.newline)) = [] := by
    rw [List.filter_eq_nil_iff]
    intro p hp
    have hbyte : p.1 = 0x61 := List.eq_of_mem_replicate (List.fst_mem_of_mem_zipIdx hp)
    rw [hbyte]
    decide
  simp only [wrapped, bytes_replicate, hnewlines, List.length_replicate]
  rfl

end WordTable

end ScriptAssembly
