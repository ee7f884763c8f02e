import Mathlib.Data.List.Induction
import ScriptAssembly.Source.Basic
/-
Positions told by counting.

A line table finds the line of an offset by a search among the starts of all
lines. `Position.behind` needs no table: it counts the newlines in front of
the offset, and the bytes behind the last of them. Both agree
(`locate_ofText`), because the starts up to the offset are just the starts of
the text that is cut off there, and all others are behind it.
-/
namespace ScriptAssembly

/-- The position behind some bytes: the line is told by the newlines among them, the column by the bytes behind the
last newline. -/
def Position.behind (bytes : List UInt8) : Position where
  line := bytes.count LineTable.newline + 1
  column := (bytes.reverse.takeWhile (· != LineTable.newline)).length + 1

/-- The position of an offset in a text; an offset past the end has the whole text in front of it. -/
def Position.ofOffset (text : String) (offset : Nat) : Position := .behind (text.toUTF8.data.toList.take offset)

namespace LineTable

/-! ## The starts of lines -/

@[simp] theorem length_ofBytes (bytes : List UInt8) : (ofBytes bytes).length = bytes.length := by
  induction bytes using List.reverseRecOn with
  | nil => rfl
  | append_singleton bytes b ih => simp [push, ih]

theorem starts_concat (bytes : List UInt8) (b : UInt8) : (ofBytes (bytes ++ [b])).starts =
    if b = newline then (ofBytes bytes).starts.push (bytes.length + 1) else (ofBytes bytes).starts := by
  rw [ofBytes_concat, push, length_ofBytes]

theorem size_starts (bytes : List UInt8) : (ofBytes bytes).starts.size = bytes.count newline + 1 := by
  induction bytes using List.reverseRecOn with
  | nil => rfl
  | append_singleton bytes b ih =>
    rw [starts_concat, List.count_append, List.count_singleton]
    by_cases hb : b = newline
    · simp [hb, ih]
    · simp [hb, ih]

/-- No line starts behind the text. -/
theorem starts_le {bytes : List UInt8} {start : Nat} (h : start ∈ (ofBytes bytes).starts) : start ≤ bytes.length := by
  induction bytes using List.reverseRecOn with
  | nil => simpa [ofBytes, empty] using h
  | append_singleton bytes b ih =>
    rw [starts_concat] at h
    rw [List.length_append, List.length_singleton]
    split at h
    · rcases Array.mem_push.mp h with h | h
      · have hle := ih h
        omega
      · omega
    · have hle := ih h
      omega

/-- The last line starts behind the last newline. -/
theorem last_start (bytes : List UInt8) : ∃ start, (ofBytes bytes).starts[bytes.count newline]? = some start ∧
    start + (bytes.reverse.takeWhile (· != newline)).length = bytes.length := by
  induction bytes using List.reverseRecOn with
  | nil => exact ⟨0, rfl, rfl⟩
  | append_singleton bytes b ih =>
    obtain ⟨start, hstart, hlength⟩ := ih
    rw [starts_concat, List.count_append, List.count_singleton, List.reverse_append, List.length_append]
    by_cases hb : b = newline
    · refine ⟨bytes.length + 1, ?_, by simp [hb]⟩
      have hsize := size_starts bytes
      simp [hb, ← hsize]
    · refine ⟨start, by simpa [hb] using hstart, ?_⟩
      simp [hb]
      omega

/-- More text adds only lines that start behind the text before it. -/
theorem starts_append (front back : List UInt8) : ∃ more : List Nat,
    (ofBytes (front ++ back)).starts.toList = (ofBytes front).starts.toList ++ more ∧
      ∀ start ∈ more, front.length < start := by
  induction back using List.reverseRecOn with
  | nil => exact ⟨[], by simp, by simp⟩
  | append_singleton back b ih =>
    obtain ⟨more, hmore, hlt⟩ := ih
    rw [← List.append_assoc, starts_concat]
    split
    · refine ⟨more ++ [(front ++ back).length + 1], by simp [hmore], fun start hstart => ?_⟩
      rcases List.mem_append.mp hstart with hstart | hstart
      · exact hlt start hstart
      · rw [List.mem_singleton.mp hstart, List.length_append]
        omega
    · exact ⟨more, hmore, hlt⟩

/-! ## The search -/

/-- The search finds the one place with all starts in front of it up to the offset, and all others behind the offset. -/
theorem countUpTo_eq {starts : Array Nat} {offset n : Nat}
    (hbefore : ∀ k (hk : k < starts.size), k < n → starts[k] ≤ offset)
    (hbehind : ∀ k (hk : k < starts.size), n ≤ k → offset < starts[k]) {lo hi : Nat} (hhi : hi ≤ starts.size)
    (hlo : lo ≤ n) (hn : n ≤ hi) : countUpTo starts offset lo hi hhi = n := by
  fun_induction countUpTo starts offset lo hi hhi with
  | case1 lo hi hhi h mid hle ih =>
    refine ih ?_ hn
    -- The start in the middle is up to the offset, so the place is behind it.
    by_contra hlt
    have hgt := hbehind mid (by omega) (by omega)
    omega
  | case2 lo hi hhi h mid hgt ih =>
    refine ih hlo ?_
    by_contra hlt
    have hle := hbefore mid (by omega) (by omega)
    omega
  | case3 lo hi hhi h => omega

/-- An offset is behind the starts of all lines that are closed in front of it, and of its own. -/
theorem countUpTo_take (bytes : List UInt8) (offset : Nat) :
    countUpTo (ofBytes bytes).starts (bytes.take offset).length 0 (ofBytes bytes).starts.size (Nat.le_refl _) =
      (bytes.take offset).count newline + 1 := by
  obtain ⟨more, hstarts, hmore⟩ := starts_append (bytes.take offset) (bytes.drop offset)
  have hsize := size_starts (bytes.take offset)
  rw [List.take_append_drop] at hstarts
  have hget : ∀ k, (ofBytes bytes).starts[k]? = ((ofBytes (bytes.take offset)).starts.toList ++ more)[k]? := fun k => by
    rw [← hstarts, Array.getElem?_toList]
  refine countUpTo_eq (fun k hk hlt => ?_) (fun k hk hle => ?_) _ (Nat.zero_le _) ?_
  · have hk' := hget k
    rw [Array.getElem?_eq_getElem hk, List.getElem?_append_left (by simpa [hsize] using hlt)] at hk'
    exact starts_le (Array.mem_toList_iff.mp (List.mem_of_getElem? hk'.symm))
  · have hk' := hget k
    rw [Array.getElem?_eq_getElem hk, List.getElem?_append_right (by simpa [hsize] using hle)] at hk'
    exact hmore _ (List.mem_of_getElem? hk'.symm)
  · rw [← Array.length_toList, hstarts, List.length_append, Array.length_toList, hsize]
    omega

/-- The line of an offset starts behind the last newline in front of the offset. -/
theorem start_take (bytes : List UInt8) (offset : Nat) :
    ∃ start, (ofBytes bytes).starts[(bytes.take offset).count newline]? = some start ∧
      start + ((bytes.take offset).reverse.takeWhile (· != newline)).length = (bytes.take offset).length := by
  obtain ⟨more, hstarts, -⟩ := starts_append (bytes.take offset) (bytes.drop offset)
  obtain ⟨start, hstart, hlength⟩ := last_start (bytes.take offset)
  rw [List.take_append_drop] at hstarts
  refine ⟨start, ?_, hlength⟩
  rw [← Array.getElem?_toList, hstarts, List.getElem?_append_left (by simp [size_starts]), Array.getElem?_toList, hstart]

/-- **A line table** and counting give the same position. -/
theorem locate_ofBytes (bytes : List UInt8) (offset : Nat) :
    (ofBytes bytes).locate offset = .behind (bytes.take offset) := by
  obtain ⟨start, hstart, hlength⟩ := start_take bytes offset
  have hmin : min offset bytes.length = (bytes.take offset).length := by rw [List.length_take]
  simp only [locate, length_ofBytes, hmin, countUpTo_take, Nat.add_sub_cancel, hstart, Option.getD_some,
    Position.behind, Position.mk.injEq, true_and]
  omega

theorem locate_ofText (text : String) (offset : Nat) : (ofText text).locate offset = .ofOffset text offset :=
  locate_ofBytes _ offset

end LineTable

end ScriptAssembly
