import Mathlib.Data.Nat.Find
import ScriptAssembly.Emission.Basic
import ScriptAssembly.Proofs.Lists
/-
Labels and the instructions around them.

The nodes of a draft are labels and instructions in one list, and only the
instructions are counted by offsets. A label stands for the number of
instructions in front of its last placement (`Resolves`), and this is the
offset that a label table has for it (`LabelTable.offset_eq_ok_iff`). As this
number grows with every instruction and with no label, the offsets from one
label to another are those of the instructions written between the two
(`covers_of_resolves`).
-/
namespace ScriptAssembly

namespace Draft

/-! ## Counting instructions -/

/-- The number of instructions among the nodes in front of a position. -/
def instructionsBefore (nodes : List Node) (position : Nat) : Nat :=
  ((nodes.take position).filterMap Node.instruction?).length

/-- The instruction of the given index is the node at a position. -/
structure InstructionAt (nodes : List Node) (index position : Nat) (i : Instruction) : Prop where
  node : nodes[position]? = some (.instruction i)
  before : instructionsBefore nodes position = index

/-- An instruction behind a position, with no other one between. -/
structure NextInstruction (nodes : List Node) (position next : Nat) (i : Instruction) : Prop where
  behind : position < next
  node : nodes[next]? = some (.instruction i)
  first : ∀ between i', position < between → nodes[between]? = some (.instruction i') → next ≤ between

variable {nodes : List Node} {index position next : Nat} {i : Instruction}

theorem instructionsBefore_append {more : List Node} (h : position ≤ nodes.length) :
    instructionsBefore (nodes ++ more) position = instructionsBefore nodes position := by
  rw [instructionsBefore, List.take_append_of_le_length h, instructionsBefore]

theorem instructionsBefore_length (nodes : List Node) :
    instructionsBefore nodes nodes.length = (nodes.filterMap Node.instruction?).length := by
  rw [instructionsBefore, List.take_length]

theorem instructionsBefore_mono (nodes : List Node) {first last : Nat} (h : first ≤ last) :
    instructionsBefore nodes first ≤ instructionsBefore nodes last := by
  have htake : nodes.take first = (nodes.take last).take first := by rw [List.take_take, Nat.min_eq_left h]
  rw [instructionsBefore, htake]
  exact ((List.take_sublist first _).filterMap _).length_le

/-- An instruction is counted by everything behind it. -/
theorem instructionsBefore_succ (h : nodes[position]? = some (.instruction i)) :
    instructionsBefore nodes (position + 1) = instructionsBefore nodes position + 1 := by
  simp [instructionsBefore, List.take_add_one, h, Node.instruction?]

/-- Where no instruction stands between, none is counted. -/
theorem instructionsBefore_eq {first last : Nat} (hle : first ≤ last)
    (h : ∀ between i', first ≤ between → nodes[between]? = some (.instruction i') → last ≤ between) :
    instructionsBefore nodes last = instructionsBefore nodes first := by
  induction hle with
  | refl => rfl
  | @step last hle ih =>
    rw [← ih fun between i' hb hi => Nat.le_of_succ_le (h between i' hb hi)]
    have hnone : (nodes[last]?).toList.filterMap Node.instruction? = [] := by
      cases hn : nodes[last]? with
      | none => rfl
      | some node =>
        cases node with
        | label l => rfl
        | instruction i' =>
          have hlast := h last i' hle hn
          omega
    rw [instructionsBefore, List.take_add_one, List.filterMap_append, hnone, List.append_nil, instructionsBefore]

/-- The node of an index is the instruction of that index. -/
theorem InstructionAt.getElem? (h : InstructionAt nodes index position i) :
    (nodes.filterMap Node.instruction?)[index]? = some i := by
  obtain ⟨hnode, hbefore⟩ := h
  obtain ⟨hlt, hget⟩ := List.getElem?_eq_some_iff.mp hnode
  have hsplit : nodes = nodes.take position ++ .instruction i :: nodes.drop (position + 1) := by
    rw [← hget, List.getElem_cons_drop, List.take_append_drop]
  rw [hsplit, List.filterMap_append]
  rw [instructionsBefore] at hbefore
  rw [List.getElem?_append_right (by omega), hbefore, Nat.sub_self]
  rfl

/-- Every instruction has a node. -/
theorem exists_instructionAt (h : (nodes.filterMap Node.instruction?)[index]? = some i) :
    ∃ position, InstructionAt nodes index position i := by
  induction nodes generalizing index with
  | nil => cases h
  | cons node nodes ih =>
    cases node with
    | label l =>
      obtain ⟨position, hnode, hbefore⟩ := ih h
      exact ⟨position + 1, hnode, hbefore⟩
    | instruction i' =>
      cases index with
      | zero =>
        obtain rfl : i' = i := Option.some.inj h
        exact ⟨0, rfl, rfl⟩
      | succ index =>
        obtain ⟨position, hnode, hbefore⟩ := ih h
        refine ⟨position + 1, hnode, ?_⟩
        rw [← hbefore]
        rfl

/-- The instruction behind a position has the index that is counted there. -/
theorem NextInstruction.instructionAt {l : Label} (h : NextInstruction nodes position next i)
    (hl : nodes[position]? = some (.label l)) : InstructionAt nodes (instructionsBefore nodes position) next i := by
  refine ⟨h.node, instructionsBefore_eq (Nat.le_of_lt h.behind) fun between i' hle hi => ?_⟩
  rcases Nat.eq_or_lt_of_le hle with rfl | hlt
  · rw [hl] at hi
    cases hi
  · exact h.first between i' hlt hi

/-- If any instruction stands behind a position, one of them is the first. -/
theorem exists_nextInstruction {later : Nat} {i' : Instruction} (hlt : position < later)
    (hlater : nodes[later]? = some (.instruction i')) : ∃ next i, NextInstruction nodes position next i := by
  classical
  have hsome : ∃ k, position < k ∧ ∃ i, nodes[k]? = some (.instruction i) := ⟨later, hlt, i', hlater⟩
  obtain ⟨hbehind, i, hnode⟩ := Nat.find_spec hsome
  exact ⟨Nat.find hsome, i, hbehind, hnode, fun between i' hb hi => Nat.find_min' hsome ⟨hb, i', hi⟩⟩

/-! ## Placements -/

/-- The last placement of a label is the node at a position. -/
structure LastPlaced (nodes : List Node) (l : Label) (position : Nat) : Prop where
  placed : nodes[position]? = some (.label l)
  last : ∀ other, nodes[other]? = some (.label l) → other ≤ position

theorem LastPlaced.unique {l : Label} {position' : Nat} (h : LastPlaced nodes l position)
    (h' : LastPlaced nodes l position') : position = position' :=
  Nat.le_antisymm (h'.last position h.placed) (h.last position' h'.placed)

theorem lastPlaced_concat_self {l : Label} : LastPlaced (nodes ++ [.label l]) l position ↔ position = nodes.length := by
  constructor
  · intro h
    have hle := h.last nodes.length (by simp)
    rcases getElem?_concat_iff.mp h.placed with hplaced | ⟨hlength, -⟩
    · have hlt := (List.getElem?_eq_some_iff.mp hplaced).1
      omega
    · exact hlength
  · rintro rfl
    refine ⟨by simp, fun other hother => ?_⟩
    have hlt := (List.getElem?_eq_some_iff.mp hother).1
    rw [List.length_append, List.length_singleton] at hlt
    omega

/-- Any other node leaves a label where it is. -/
theorem lastPlaced_concat {l : Label} {node : Node} (h : node ≠ .label l) :
    LastPlaced (nodes ++ [node]) l position ↔ LastPlaced nodes l position := by
  have hplaced : ∀ other : Nat,
      (nodes ++ [node])[other]? = some (Node.label l) ↔ nodes[other]? = some (Node.label l) := by
    intro other
    rw [getElem?_concat_iff, or_iff_left fun hnode => h hnode.2]
  constructor
  · intro hlast
    exact ⟨(hplaced position).mp hlast.placed, fun other ho => hlast.last other ((hplaced other).mpr ho)⟩
  · intro hlast
    exact ⟨(hplaced position).mpr hlast.placed, fun other ho => hlast.last other ((hplaced other).mp ho)⟩

variable {d : Draft} {b e : Label} {m n : Nat}

/-- A label stands for an offset, the number of instructions in front of its last placement. -/
def Resolves (d : Draft) (l : Label) (offset : Nat) : Prop :=
  ∃ position, LastPlaced d.nodes.toList l position ∧ instructionsBefore d.nodes.toList position = offset

/-- The instruction of an index is written behind the last placement of one label, and in front of that of another. -/
def Between (d : Draft) (b e : Label) (index : Nat) : Prop :=
  ∃ first last position i, LastPlaced d.nodes.toList b first ∧ LastPlaced d.nodes.toList e last ∧
    InstructionAt d.nodes.toList index position i ∧ first < position ∧ position < last

/-- Two offsets that two labels stand for, and that have the instructions between these labels between them. -/
structure Covers (d : Draft) (b e : Label) (m n : Nat) : Prop where
  start : d.Resolves b m
  stop : d.Resolves e n
  inside : ∀ index, m ≤ index ∧ index < n ↔ d.Between b e index

/-- **The offsets between those of two labels** are the instructions between the two. -/
theorem covers_of_resolves (hb : d.Resolves b m) (he : d.Resolves e n) : d.Covers b e m n := by
  refine ⟨hb, he, fun index => ?_⟩
  obtain ⟨first, hfirst, rfl⟩ := hb
  obtain ⟨last, hlast, rfl⟩ := he
  constructor
  · rintro ⟨hle, hlt⟩
    have htotal : instructionsBefore d.nodes.toList last ≤ (d.nodes.toList.filterMap Node.instruction?).length := by
      rw [← instructionsBefore_length]
      exact instructionsBefore_mono _ (Nat.le_of_lt (List.getElem?_eq_some_iff.mp hlast.placed).1)
    obtain ⟨position, hat⟩ := exists_instructionAt (List.getElem?_eq_getElem (Nat.lt_of_lt_of_le hlt htotal))
    refine ⟨first, last, position, _, hfirst, hlast, hat, ?_, ?_⟩
    · -- An instruction in front of the first label would be counted there.
      by_contra hnot
      rcases Nat.eq_or_lt_of_le (Nat.le_of_not_lt hnot) with heq | hbefore
      · have hplaced := hfirst.placed
        rw [← heq, hat.node] at hplaced
        cases hplaced
      · have hmono := instructionsBefore_mono d.nodes.toList (Nat.succ_le_of_lt hbefore)
        rw [instructionsBefore_succ hat.node, hat.before] at hmono
        omega
    · by_contra hnot
      have hmono := instructionsBefore_mono d.nodes.toList (Nat.le_of_not_lt hnot)
      rw [hat.before] at hmono
      omega
  · rintro ⟨first', last', position, i, hfirst', hlast', hat, hbehind, hbefore⟩
    obtain rfl := hfirst.unique hfirst'
    obtain rfl := hlast.unique hlast'
    have hstart := instructionsBefore_mono d.nodes.toList (Nat.le_of_lt hbehind)
    have hstop := instructionsBefore_mono d.nodes.toList (Nat.succ_le_of_lt hbefore)
    rw [hat.before] at hstart
    rw [instructionsBefore_succ hat.node, hat.before] at hstop
    omega

end Draft

/-! ## Label tables -/

namespace Emission.LabelTable

open Draft

theorem ofNodes_concat (nodes : List Node) (node : Node) :
    ofNodes (nodes ++ [node]) = (ofNodes nodes).extend (instructionsBefore nodes nodes.length) [node] := by
  rw [ofNodes, extend_append, Nat.zero_add, instructionsBefore_length, ofNodes]

/-- A table has the number of instructions in front of the last placement. -/
theorem getElem?_ofNodes (nodes : List Node) (l : Label) (offset : Nat) :
    (ofNodes nodes).offsets[l.number]? = some offset ↔
      ∃ position, LastPlaced nodes l position ∧ instructionsBefore nodes position = offset := by
  induction nodes using List.reverseRecOn with
  | nil =>
    simp only [ofNodes, extend, Std.ExtTreeMap.getElem?_empty, reduceCtorEq, false_iff]
    rintro ⟨position, hlast, -⟩
    cases hlast.placed
  | append_singleton nodes node ih =>
    -- A node that is not this label changes nothing for it.
    have hother : node ≠ .label l → ((ofNodes nodes).offsets[l.number]? = some offset ↔
        ∃ position, LastPlaced (nodes ++ [node]) l position ∧
          instructionsBefore (nodes ++ [node]) position = offset) := by
      intro hne
      rw [ih]
      refine exists_congr fun position => ?_
      rw [lastPlaced_concat hne]
      refine and_congr_right fun hlast => ?_
      rw [instructionsBefore_append (Nat.le_of_lt (List.getElem?_eq_some_iff.mp hlast.placed).1)]
    rw [ofNodes_concat]
    cases node with
    | instruction i => exact hother (by simp)
    | label placed =>
      simp only [extend, Std.ExtTreeMap.getElem?_insert, Std.LawfulEqCmp.compare_eq_iff_eq]
      by_cases hplaced : placed = l
      · subst hplaced
        simp only [lastPlaced_concat_self, exists_eq_left, if_true, Option.some.injEq]
        rw [instructionsBefore_append (Nat.le_refl _)]
      · have hnumber : ¬ placed.number = l.number := fun heq => hplaced (by cases placed; cases l; simpa using heq)
        rw [if_neg hnumber]
        exact hother (by simpa using hplaced)

/-- **A label table** has the offsets that labels stand for, and no others. -/
theorem offset_eq_ok_iff {d : Draft} {l : Label} {offset : Nat} :
    (ofNodes d.nodes.toList).offset l = .ok offset ↔ d.Resolves l offset := by
  rw [Draft.Resolves, ← getElem?_ofNodes, LabelTable.offset]
  split
  next n hn => simp [hn]
  next hn => simp [hn]

end Emission.LabelTable

end ScriptAssembly
