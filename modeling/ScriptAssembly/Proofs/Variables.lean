import ScriptAssembly.Proofs.Branches
/-
The local variables of a function.

With debug information a function lists the variables of its scope tree:
those of a scope first, and then, child after child, those of the scopes inside
it. A scope is told by the path that leads to it, the numbers of the children
on the way down; so the order of the scopes is the order of their paths,
where a path comes in front of all that go on from it (`Draft.Scope.paths`).
What a variable is listed with depends on its own scope alone: two labels and
the offsets that they stand for (`MakesLocal`). These may come in either order,
and neither is behind the last instruction, so no sum of a start and a length
is either.
-/
namespace ScriptAssembly

namespace Draft

/-! ## Paths in a scope tree -/

/-- The scope that a path leads to: the numbers of the children on the way down. -/
def Scope.at? : Scope → List Nat → Option Scope
  | s, [] => some s
  | s, k :: path => s.children[k]?.bind fun child => child.at? path

mutual

/-- All paths of a scope tree, the path of a scope in front of those that go on from it. -/
def Scope.paths : Scope → List (List Nat)
  | ⟨_, _, _, children⟩ => [] :: pathsFrom 0 children

/-- The paths into scopes that lie side by side, the first of which has the given number. -/
def pathsFrom (number : Nat) : List Scope → List (List Nat)
  | [] => []
  | s :: ss => s.paths.map (number :: ·) ++ pathsFrom (number + 1) ss

end

mutual

theorem Scope.mem_paths : ∀ (s : Scope) (path : List Nat), path ∈ s.paths ↔ (s.at? path).isSome
  | ⟨start, stop, declared, children⟩, path => by
    rw [Scope.paths, List.mem_cons, mem_pathsFrom]
    cases path with
    | nil => simp [Scope.at?]
    | cons k path =>
      simp only [reduceCtorEq, false_or, Nat.zero_add, List.cons.injEq, Scope.at?, Option.isSome_bind]
      constructor
      · rintro ⟨k', path', s, ⟨rfl, rfl⟩, hs, hsome⟩
        simp [hs, hsome]
      · intro hsome
        cases hs : children[k]? with
        | none => simp [hs] at hsome
        | some s => exact ⟨k, path, s, ⟨rfl, rfl⟩, hs, by simpa [hs] using hsome⟩

theorem mem_pathsFrom : ∀ (ss : List Scope) (number : Nat) (path : List Nat), path ∈ pathsFrom number ss ↔
    ∃ k path' s, path = (number + k) :: path' ∧ ss[k]? = some s ∧ (s.at? path').isSome
  | [], number, path => by simp [pathsFrom]
  | s :: ss, number, path => by
    simp only [pathsFrom, List.mem_append, List.mem_map, mem_pathsFrom ss, Scope.mem_paths s]
    constructor
    · rintro (⟨path', hsome, rfl⟩ | ⟨k, path', s', rfl, hs', hsome⟩)
      · exact ⟨0, path', s, rfl, rfl, hsome⟩
      · exact ⟨k + 1, path', s', by rw [Nat.add_assoc, Nat.add_comm 1], hs', hsome⟩
    · rintro ⟨k, path', s', rfl, hs', hsome⟩
      cases k with
      | zero =>
        cases hs'
        exact .inl ⟨path', hsome, rfl⟩
      | succ k => exact .inr ⟨k, path', s', by rw [Nat.add_assoc, Nat.add_comm 1], hs', hsome⟩

end

mutual

/-- Paths are listed in their order. -/
theorem Scope.pairwise_paths : ∀ s : Scope, s.paths.Pairwise (· < ·)
  | ⟨start, stop, declared, children⟩ => by
    rw [Scope.paths, List.pairwise_cons]
    refine ⟨fun path hpath => ?_, pairwise_pathsFrom children 0⟩
    obtain ⟨k, path', -, rfl, -⟩ := (mem_pathsFrom children 0 path).mp hpath
    exact List.nil_lt_cons _ _

theorem pairwise_pathsFrom : ∀ (ss : List Scope) (number : Nat), (pathsFrom number ss).Pairwise (· < ·)
  | [], number => .nil
  | s :: ss, number => by
    rw [pathsFrom, List.pairwise_append, List.pairwise_map]
    refine ⟨?_, pairwise_pathsFrom ss (number + 1), fun path hpath path' hpath' => ?_⟩
    · exact (Scope.pairwise_paths s).imp fun hlt => List.cons_lt_cons_iff.mpr (.inr ⟨rfl, hlt⟩)
    · obtain ⟨tail, -, rfl⟩ := List.mem_map.mp hpath
      obtain ⟨k, tail', -, rfl, -⟩ := (mem_pathsFrom ss (number + 1) path').mp hpath'
      exact List.cons_lt_cons_iff.mpr (.inl (by omega))

end

mutual

/-- In the order of their paths, the scopes stand from the outside in. -/
theorem Scope.map_at?_paths : ∀ s : Scope, s.paths.map s.at? = s.preorder.map some
  | ⟨start, stop, declared, children⟩ => by
    rw [Scope.paths, Scope.preorder, List.map_cons, List.map_cons]
    exact congrArg (_ :: ·) (map_at?_pathsFrom children children 0 fun k => by rw [Nat.zero_add])

theorem map_at?_pathsFrom {start stop : Label} {declared : List Variable} : ∀ (ss all : List Scope) (number : Nat),
    (∀ k, ss[k]? = all[number + k]?) →
    (pathsFrom number ss).map (Scope.at? ⟨start, stop, declared, all⟩) = (preorderOfAll ss).map some
  | [], all, number, _ => rfl
  | s :: ss, all, number, hall => by
    have hfirst : all[number]? = some s := (hall 0).symm
    have hrest : ∀ k, ss[k]? = all[number + 1 + k]? := by
      intro k
      rw [Nat.add_assoc, Nat.add_comm 1, ← hall]
      rfl
    rw [pathsFrom, preorderOfAll, List.map_append, List.map_append, map_at?_pathsFrom ss all (number + 1) hrest,
      ← Scope.map_at?_paths s, List.map_map]
    congr 1
    refine List.map_congr_left fun path _ => ?_
    simp only [Function.comp_apply, Scope.at?, hfirst, Option.bind_some]

end

/-- The variables of a scope, without those of the scopes inside it. -/
def Scope.own (s : Scope) : List (Scope × Variable) := s.declared.map (s, ·)

end Draft

namespace Emission

/-! ## Variables -/

/-- What a variable of a scope is listed with. -/
structure MakesLocal (d : Draft) (e : Emission) (x : Draft.Scope × Draft.Variable) (v : Function.LocalVariable) :
    Prop where
  name : v.name = x.2.name
  register : v.register = x.2.register
  signature : v.signature = "any"
  start : d.Resolves x.1.start v.start
  length : ∃ stop, d.Resolves x.1.stop stop ∧ v.length = (if v.start ≤ stop then stop - v.start else 0) ∧
    v.start + v.length = max v.start stop
  bounded : v.start + v.length ≤ e.function.instructions.length
  /-- In words of 32 bits, in which there is room for the number of instructions, the sum does not wrap. -/
  word : e.function.instructions.length < UInt32.size →
    (UInt32.ofNat v.start + UInt32.ofNat v.length).toNat = v.start + v.length

/-- A function that lists the variables of a scope tree, scope by scope in the order of their paths. -/
structure ListsVariables (d : Draft) (e : Emission) : Prop where
  listed : List.Forall₂ (MakesLocal d e) (d.scopes.flatMap Draft.Scope.own) e.function.locals
  order : ∀ s, d.scope = some s → ∃ paths : List (List Nat), paths.Pairwise (· < ·) ∧
    (∀ path, path ∈ paths ↔ (s.at? path).isSome) ∧ paths.map s.at? = d.scopes.map some
  empty : d.scope = none → e.function.locals = []

variable {debug : Bool} {d : Draft} {ids : Std.ExtTreeSet UInt32} {e : Emission}

theorem resolves_le {l : Draft.Label} {n : Nat} (h : d.Resolves l n) : n ≤ d.instructions.length := by
  have hoffset : (contextOf false d ∅).labels.offset l = .ok n := LabelTable.offset_eq_ok_iff.mpr h
  exact offset_le hoffset

/-- Numbers whose sum fits a word add up there. -/
theorem toNat_ofNat_add {m n : Nat} (h : m + n < UInt32.size) : (UInt32.ofNat m + UInt32.ofNat n).toNat = m + n := by
  have hm : (UInt32.ofNat m).toNat = m := UInt32.toNat_ofNat_of_lt (by omega)
  have hn : (UInt32.ofNat n).toNat = n := UInt32.toNat_ofNat_of_lt (by omega)
  rw [UInt32.toNat_add, hm, hn]
  exact Nat.mod_eq_of_lt h

theorem FromDraft.makesLocal (h : FromDraft debug d ids e) {s : Draft.Scope} {m n : Nat} (hm : d.Resolves s.start m)
    (hn : d.Resolves s.stop n) (x : Draft.Variable) : MakesLocal d e (s, x) (localVariable m n x) := by
  have hsum : (localVariable m n x).start + (localVariable m n x).length = max m n := by
    simp only [localVariable]
    omega
  have hbounded : max m n ≤ e.function.instructions.length := by
    rw [h.length_instructions]
    exact Nat.max_le.mpr ⟨resolves_le hm, resolves_le hn⟩
  refine ⟨rfl, rfl, rfl, hm, ⟨n, hn, ?_, hsum⟩, hsum ▸ hbounded, fun hsize => ?_⟩
  · show n - m = if m ≤ n then n - m else 0
    split <;> omega
  · refine toNat_ofNat_add ?_
    rw [hsum]
    exact Nat.lt_of_le_of_lt hbounded hsize

/-- The variables of a scope are listed one by one. -/
theorem FromDraft.makesOwn (h : FromDraft debug d ids e) {s : Draft.Scope} {vs : List Function.LocalVariable}
    (hvs : MakesLocals d s vs) : List.Forall₂ (MakesLocal d e) s.own vs := by
  obtain ⟨m, n, hcovers, rfl⟩ := hvs.declared
  rw [Draft.Scope.own, List.forall₂_map_left_iff, List.forall₂_map_right_iff, List.forall₂_same]
  exact fun x _ => h.makesLocal hcovers.start hcovers.stop x

/-- **A function lists the variables of its scopes,** each with the offsets of its own scope. -/
theorem listsVariables_of_emit (h : d.emit true = .ok e) : ListsVariables d e := by
  obtain ⟨ids, hd⟩ := fromDraft_of_emit h
  obtain ⟨locals, hlocals, hflatten⟩ := hd.scopes_ok rfl
  refine ⟨?_, fun s hs => ?_, fun hnone => ?_⟩
  · have hlisted : List.Forall₂ (MakesLocal d e) (d.scopes.flatMap Draft.Scope.own) (locals.flatMap id) :=
      List.rel_flatMap hlocals fun _ _ hvs => hd.makesOwn hvs
    rwa [List.flatMap_id, ← hflatten] at hlisted
  · have hscopes : d.scopes = s.preorder := by
      rw [Draft.scopes, hs]
      exact List.append_nil _
    rw [hscopes]
    exact ⟨s.paths, s.pairwise_paths, s.mem_paths, s.map_at?_paths⟩
  · have hscopes : d.scopes = [] := by
      rw [Draft.scopes, hnone]
      rfl
    rw [hscopes] at hlocals
    cases hlocals
    exact hflatten

/-- A scope tree with a scope that is turned around, one without variables, two that share a label, and one that
ends behind the last instruction. -/
def nestedDraft : Draft where
  name := "f"
  kind := .plain
  parameterCount := 0
  source := ⟨"m.js", ""⟩
  nodes := #[.label ⟨0⟩, .instruction ⟨.ldTrue, [], none⟩, .label ⟨1⟩, .instruction ⟨.ldFalse, [], none⟩,
    .instruction ⟨.returnUndefined, [], none⟩, .label ⟨2⟩]
  scope := some ⟨⟨0⟩, ⟨2⟩, [⟨"a", 0⟩, ⟨"b", 1⟩],
    [⟨⟨1⟩, ⟨0⟩, [⟨"c", 2⟩], [⟨⟨1⟩, ⟨2⟩, [⟨"d", 3⟩], []⟩]⟩, ⟨⟨1⟩, ⟨1⟩, [], [⟨⟨0⟩, ⟨1⟩, [⟨"e", 4⟩], []⟩]⟩]⟩

theorem listsVariables_of_emit_nested : ∃ e, nestedDraft.emit true = .ok e ∧
    e.function.locals = [⟨"a", "any", 0, 0, 3⟩, ⟨"b", "any", 1, 0, 3⟩, ⟨"c", "any", 2, 1, 0⟩, ⟨"d", "any", 3, 1, 2⟩,
      ⟨"e", "any", 4, 0, 1⟩] ∧
    ListsVariables nestedDraft e := by
  refine exists_ok_and ?_ fun e he => listsVariables_of_emit he
  decide +kernel

end Emission

end ScriptAssembly
