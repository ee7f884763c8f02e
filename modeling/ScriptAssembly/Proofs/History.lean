import ScriptAssembly.Linkage.Sections
import ScriptAssembly.Proofs.Registration
import ScriptAssembly.Proofs.Tables
/-
What a run of registrations amounts to.

The history of a run is its accepted registrations, each with its step. The
contents of the linkage can be read off it: a local export belongs to the
module where no regular import of the whole run binds its local name, and
is redirected through the first such import where one does, at the step of
the one or of the other, whichever is later. `Reads` says that a linkage
has these contents; every step keeps it, whether import or export comes first.
-/
namespace ScriptAssembly.Linkage

/-- Registrations and the steps at which they were accepted. -/
abbrev History := List (Registration × Nat)

/-- The accepted registrations of a run whose first step has the given number. -/
def accepted (l : Linkage) (step : Nat) : List Registration → History
  | [] => []
  | r :: rs =>
    match l.answer r with
    | .ok true => (r, step) :: (l.attempt r).accepted (step + 1) rs
    | _ => (l.attempt r).accepted (step + 1) rs

/-- What is accepted is a registration of the run. -/
theorem exists_of_mem_accepted {l : Linkage} {rs : List Registration} {r : Registration} {step n : Nat}
    (h : (r, step) ∈ l.accepted n rs) :
    ∃ before after, rs = before ++ r :: after ∧ (l.run before).answer r = .ok true := by
  induction rs generalizing l n with
  | nil => cases h
  | cons r' rs ih =>
    have hlater : (r, step) ∈ (l.attempt r').accepted (n + 1) rs →
        ∃ before after, r' :: rs = before ++ r :: after ∧ (l.run before).answer r = .ok true := by
      intro hmem
      obtain ⟨before, after, rfl, hanswer⟩ := ih hmem
      exact ⟨r' :: before, after, rfl, hanswer⟩
    rw [accepted] at h
    split at h
    next hanswer =>
      obtain heq | hmem := List.mem_cons.mp h
      · cases heq
        exact ⟨[], rs, rfl, hanswer⟩
      · exact hlater hmem
    next => exact hlater h

namespace History

variable (h : History)

def specifiers : List String := h.filterMap (·.1.specifier?)

/-- The regular imports, with their steps. -/
def imports : List (Import × Nat) := h.filterMap fun x => x.1.regularImport?.map (·, x.2)

def namespaceImports : List Import := h.filterMap (·.1.namespaceImport?)

def localExports : List LocalExport := h.filterMap (·.1.localExport?)

def starExports : List StarExport := h.filterMap (·.1.starExport?)

/-- The first regular import that binds a local name. -/
def firstImport? (name : String) : Option (Import × Nat) := h.imports.find? (·.1.localName == name)

/-- The local exports of names that are not imported. -/
def ownExports : List LocalExport := h.localExports.filter fun e => (h.firstImport? e.localName).isNone

/-- The indirect export that a registration leads to, and the step at which it became one, where each
local name has the given first import. -/
def redirected (first? : String → Option (Import × Nat)) : Registration × Nat → Option (IndirectExport × Nat)
  | (.indirectExport e, step) => some (e, step)
  | (.localExport e, step) => (first? e.localName).map fun (i, imported) => (e.redirect i, max step imported)
  | _ => none

/-- The indirect exports in the order of registration. -/
def indirectExports : List (IndirectExport × Nat) := h.filterMap (redirected h.firstImport?)

end History

/-- What belongs to the first steps, step by step; within a step the order stays. -/
def byStep {α : Type} (steps : Nat) (xs : List (α × Nat)) : List α :=
  (List.range steps).flatMap fun step => (xs.filter (·.2 == step)).map (·.1)

/-- The contents of a linkage after so many steps, read off their history. -/
def History.sections (h : History) (steps : Nat) : Sections where
  requests := h.specifiers.eraseDups
  regularImports := h.imports.map (·.1)
  namespaceImports := h.namespaceImports
  localExports := grouped h.ownExports
  indirectExports := byStep steps h.indirectExports
  starExports := h.starExports

/-! ## Steps -/

theorem byStep_succ {α : Type} (steps : Nat) (xs : List (α × Nat)) :
    byStep (steps + 1) xs = byStep steps xs ++ (xs.filter (·.2 == steps)).map (·.1) := by
  simp [byStep, List.range_succ]

theorem byStep_congr {α : Type} {steps : Nat} {xs ys : List (α × Nat)}
    (h : ∀ step < steps, xs.filter (·.2 == step) = ys.filter (·.2 == step)) : byStep steps xs = byStep steps ys :=
  List.flatMap_congr fun step hstep => by rw [h step (List.mem_range.mp hstep)]

/-- What belongs to no step before comes to the end. -/
theorem byStep_append {α : Type} {steps : Nat} {xs ys : List (α × Nat)} (hx : ∀ x ∈ xs, x.2 < steps)
    (hy : ∀ y ∈ ys, y.2 = steps) : byStep (steps + 1) (xs ++ ys) = byStep steps xs ++ ys.map (·.1) := by
  have hnew : (xs ++ ys).filter (·.2 == steps) = ys := by
    have hxs : xs.filter (·.2 == steps) = [] :=
      List.filter_eq_nil_iff.mpr fun x hm => by simpa using Nat.ne_of_lt (hx x hm)
    have hys : ys.filter (·.2 == steps) = ys := List.filter_eq_self.mpr fun y hm => by simpa using hy y hm
    rw [List.filter_append, hxs, hys, List.nil_append]
  have hold : byStep steps (xs ++ ys) = byStep steps xs := by
    refine byStep_congr fun step hstep => ?_
    have hys : ys.filter (·.2 == step) = [] :=
      List.filter_eq_nil_iff.mpr fun y hm => by simpa [hy y hm] using Nat.ne_of_gt hstep
    rw [List.filter_append, hys, List.append_nil]
  rw [byStep_succ, hnew, hold]

theorem mem_of_mem_byStep {α : Type} {steps : Nat} {xs : List (α × Nat)} {x : α} (h : x ∈ byStep steps xs) :
    ∃ step, (x, step) ∈ xs := by
  obtain ⟨step, -, hmem⟩ := List.mem_flatMap.mp h
  obtain ⟨⟨x, step'⟩, hfilter, rfl⟩ := List.mem_map.mp hmem
  exact ⟨step', List.mem_of_mem_filter hfilter⟩

namespace History

variable {h : History} {r : Registration} {steps : Nat}

theorem firstImport?_snoc (h : History) (r : Registration) (step : Nat) (name : String) :
    History.firstImport? (h ++ [(r, step)]) name =
      (h.firstImport? name).or ((r.regularImport?.map (·, step)).filter (·.1.localName == name)) := by
  simp only [firstImport?, imports, List.filterMap_append, List.find?_append]
  cases hr : r.regularImport? with
  | none => simp [hr]
  | some i => by_cases hn : i.localName = name <;> simp [hr, hn, Option.filter]

/-- A registration that is no regular import changes no first import. -/
theorem firstImport?_snoc_of_none (hr : r.regularImport? = none) (step : Nat) :
    History.firstImport? (h ++ [(r, step)]) = h.firstImport? := by
  funext name
  rw [firstImport?_snoc, hr]
  simp

theorem step_lt_of_firstImport? (hh : ∀ x ∈ h, x.2 < steps) {name : String} {i : Import} {step : Nat}
    (hi : h.firstImport? name = some (i, step)) : step < steps ∧ i.localName = name := by
  have hmem := List.mem_of_find?_eq_some hi
  simp only [imports, List.mem_filterMap] at hmem
  obtain ⟨x, hx, he⟩ := hmem
  refine ⟨?_, by simpa using List.find?_some hi⟩
  obtain ⟨i', -, he⟩ := Option.map_eq_some_iff.mp he
  cases he
  exact hh x hx

theorem step_lt_of_indirectExports (hh : ∀ x ∈ h, x.2 < steps) : ∀ y ∈ h.indirectExports, y.2 < steps := by
  intro y hy
  simp only [indirectExports, List.mem_filterMap] at hy
  obtain ⟨⟨r, step⟩, hx, hy⟩ := hy
  have hstep := hh _ hx
  cases r with
  | indirectExport e => cases hy; exact hstep
  | localExport e =>
    obtain ⟨⟨i, imported⟩, hi, rfl⟩ := Option.map_eq_some_iff.mp hy
    have himported := (step_lt_of_firstImport? hh hi).1
    exact Nat.max_lt.mpr ⟨hstep, himported⟩
  | request | regularImport | namespaceImport | starExport => cases hy

/-! ## One more registration -/

theorem specifiers_snoc : History.specifiers (h ++ [(r, steps)]) = h.specifiers ++ r.specifier?.toList := by
  simp only [specifiers, List.filterMap_append]
  cases hr : r.specifier? <;> simp [hr]

theorem imports_snoc :
    (History.imports (h ++ [(r, steps)])).map (·.1) = h.imports.map (·.1) ++ r.regularImport?.toList := by
  simp only [imports, List.filterMap_append]
  cases hr : r.regularImport? <;> simp [hr]

theorem namespaceImports_snoc :
    History.namespaceImports (h ++ [(r, steps)]) = h.namespaceImports ++ r.namespaceImport?.toList := by
  simp only [namespaceImports, List.filterMap_append]
  cases hr : r.namespaceImport? <;> simp [hr]

theorem starExports_snoc : History.starExports (h ++ [(r, steps)]) = h.starExports ++ r.starExport?.toList := by
  simp only [starExports, List.filterMap_append]
  cases hr : r.starExport? <;> simp [hr]

theorem ownExports_snoc (hr : r.regularImport? = none) :
    History.ownExports (h ++ [(r, steps)]) =
      h.ownExports ++ r.localExport?.toList.filter fun e => (h.firstImport? e.localName).isNone := by
  simp only [ownExports, firstImport?_snoc_of_none hr, localExports, List.filterMap_append, List.filter_append]
  cases he : r.localExport? <;> simp [he]

theorem indirectExports_snoc (hr : r.regularImport? = none) :
    History.indirectExports (h ++ [(r, steps)]) =
      h.indirectExports ++ (redirected h.firstImport? (r, steps)).toList := by
  simp only [indirectExports, firstImport?_snoc_of_none hr, List.filterMap_append]
  cases he : redirected h.firstImport? (r, steps) <;> simp [he]

theorem firstImport?_import (i : Import) (name : String) :
    History.firstImport? (h ++ [(.regularImport i, steps)]) name =
      (h.firstImport? name).or (if i.localName = name then some (i, steps) else none) := by
  rw [firstImport?_snoc]
  by_cases hn : i.localName = name <;> simp [hn, Registration.regularImport?, Option.filter]

theorem indirectExports_import (i : Import) : History.indirectExports (h ++ [(.regularImport i, steps)]) =
    h.filterMap (redirected (History.firstImport? (h ++ [(.regularImport i, steps)]))) := by
  simp [indirectExports, redirected]

/-- An import takes the exports of its local name from the module's own. -/
theorem ownExports_import (i : Import) :
    History.ownExports (h ++ [(.regularImport i, steps)]) = h.ownExports.filter (·.localName != i.localName) := by
  have hlocal : History.localExports (h ++ [(.regularImport i, steps)]) = h.localExports := by
    simp [localExports, Registration.localExport?]
  rw [ownExports, hlocal, ownExports, List.filter_filter]
  refine List.filter_congr fun e _ => ?_
  rw [firstImport?_import]
  by_cases hn : i.localName = e.localName
  · simp [hn]
  · simp [hn, Ne.symm hn]

/-- An import changes nothing of what was redirected before. -/
theorem byStep_import_of_lt (hh : ∀ x ∈ h, x.2 < steps) (i : Import) :
    byStep steps (History.indirectExports (h ++ [(.regularImport i, steps)])) = byStep steps h.indirectExports := by
  refine byStep_congr fun step hstep => ?_
  rw [indirectExports_import, indirectExports, List.filter_filterMap, List.filter_filterMap]
  refine List.filterMap_congr fun x hx => ?_
  obtain ⟨r, registered⟩ := x
  have hlt : registered < steps := hh _ hx
  cases r with
  | localExport e =>
    simp only [redirected, firstImport?_import]
    cases hf : h.firstImport? e.localName with
    | some => rfl
    | none =>
      have hmax : max registered steps ≠ step := by omega
      by_cases hn : i.localName = e.localName
      · simp [hn, hmax, Option.filter]
      · simp [hn]
  | request | regularImport | namespaceImport | indirectExport | starExport => rfl

/-- An import redirects the exports that were the module's own, and no others: those of a name that
was imported before have become indirect exports already. -/
theorem redirected_by_import (hh : ∀ x ∈ h, x.2 < steps) (i : Import) :
    ((History.indirectExports (h ++ [(.regularImport i, steps)])).filter (·.2 == steps)).map (·.1) =
      (h.ownExports.filter (·.localName == i.localName)).map (·.redirect i) := by
  rw [indirectExports_import, ownExports, localExports, List.filter_filterMap, List.map_filterMap,
    List.filter_filterMap, List.filter_filterMap, List.map_filterMap]
  refine List.filterMap_congr fun x hx => ?_
  obtain ⟨r, registered⟩ := x
  have hlt : registered < steps := hh _ hx
  cases r with
  | localExport e =>
    simp only [redirected, firstImport?_import]
    cases hf : h.firstImport? e.localName with
    | some p =>
      obtain ⟨first, imported⟩ := p
      have himported := (step_lt_of_firstImport? hh hf).1
      have hmax : max registered imported ≠ steps := by omega
      simp [hf, hmax, Registration.localExport?, Option.filter]
    | none =>
      have hmax : max registered steps = steps := by omega
      by_cases hn : i.localName = e.localName
      · simp [hf, hn, hmax, Registration.localExport?, Option.filter]
      · simp [hf, hn, Ne.symm hn, Registration.localExport?, Option.filter]
  | indirectExport e =>
    have hne : registered ≠ steps := Nat.ne_of_lt hlt
    simp [redirected, hne, Registration.localExport?, Option.filter]
  | request | regularImport | namespaceImport | starExport => rfl

theorem byStep_import (hh : ∀ x ∈ h, x.2 < steps) (i : Import) :
    byStep (steps + 1) (History.indirectExports (h ++ [(.regularImport i, steps)])) =
      byStep steps h.indirectExports ++ (h.ownExports.filter (·.localName == i.localName)).map (·.redirect i) := by
  rw [byStep_succ, byStep_import_of_lt hh, redirected_by_import hh]

end History

/-! ## Runs -/

/-- A linkage whose tables have the contents that its history tells of. -/
structure Reads (l : Linkage) (h : History) (steps : Nat) : Prop where
  requests : l.requests.Holds h.specifiers
  regularImports : l.regularImports.Holds (h.imports.map (·.1))
  namespaceImports : l.namespaceImports.toList = h.namespaceImports
  localExports : l.localExports.Holds h.ownExports
  indirectExports : l.indirectExports.toList = byStep steps h.indirectExports
  starExports : l.starExports.toList = h.starExports
  steps : ∀ x ∈ h, x.2 < steps

namespace Reads

variable {l : Linkage} {h : History} {r : Registration} {steps : Nat}

theorem empty : Linkage.empty.Reads [] 0 where
  requests := RequestTable.holds_empty
  regularImports := ImportTable.holds_empty
  namespaceImports := rfl
  localExports := LocalExportTable.holds_empty
  indirectExports := rfl
  starExports := rfl
  steps := by simp

theorem sections (hl : l.Reads h steps) : l.sections = h.sections steps := by
  simp only [Linkage.sections, History.sections, hl.requests.toList, hl.regularImports.toList, hl.namespaceImports,
    hl.localExports.toList, hl.indirectExports, hl.starExports]

theorem first? (hl : l.Reads h steps) (name : String) :
    l.regularImports.first? name = (h.firstImport? name).map (·.1) := by
  rw [hl.regularImports.first?, History.firstImport?, List.find?_map]
  rfl

/-- A step at which nothing is accepted. -/
theorem rest (hl : l.Reads h steps) : l.Reads h (steps + 1) := by
  have hsteps := History.step_lt_of_indirectExports hl.steps
  have hnone : byStep (steps + 1) (h.indirectExports ++ []) = byStep steps h.indirectExports ++ [] :=
    byStep_append hsteps (by simp)
  refine { hl with indirectExports := ?_, steps := fun x hx => Nat.lt_succ_of_lt (hl.steps x hx) }
  rw [hl.indirectExports, ← List.append_nil (byStep steps h.indirectExports), ← hnone, List.append_nil]

/-- The registrations that are no regular imports touch no redirected export. -/
theorem put_of_no_import (hl : l.Reads h steps) (hr : r.regularImport? = none)
    (hlocal : (l.put r).localExports.Holds
      (h.ownExports ++ r.localExport?.toList.filter fun e => (h.firstImport? e.localName).isNone))
    (hindirect : (l.put r).indirectExports.toList =
      l.indirectExports.toList ++ (History.redirected h.firstImport? (r, steps)).toList.map (·.1))
    (hstep : ∀ y ∈ History.redirected h.firstImport? (r, steps), y.2 = steps) :
    (l.put r).localExports.Holds (History.ownExports (h ++ [(r, steps)])) ∧
      (l.put r).indirectExports.toList = byStep (steps + 1) (History.indirectExports (h ++ [(r, steps)])) := by
  have hsteps := History.step_lt_of_indirectExports hl.steps
  constructor
  · rw [History.ownExports_snoc hr]
    exact hlocal
  · rw [hindirect, hl.indirectExports, History.indirectExports_snoc hr,
      byStep_append hsteps fun y hy => hstep y (Option.mem_toList.mp hy)]

theorem put_exports (hl : l.Reads h steps) (r : Registration) :
    (l.put r).localExports.Holds (History.ownExports (h ++ [(r, steps)])) ∧
      (l.put r).indirectExports.toList = byStep (steps + 1) (History.indirectExports (h ++ [(r, steps)])) := by
  cases r with
  | regularImport i =>
    constructor
    · rw [History.ownExports_import]
      exact hl.localExports.removeGroup i.localName
    · rw [History.byStep_import hl.steps, ← hl.indirectExports, ← hl.localExports.group]
      simp [put, redirectExports]
  | localExport e =>
    have hfirst := hl.first? e.localName
    cases hf : h.firstImport? e.localName with
    | none =>
      rw [hf, Option.map_none] at hfirst
      refine hl.put_of_no_import rfl ?_ ?_ ?_
      · simpa [put, hfirst, hf, Registration.localExport?] using hl.localExports.insert e
      · simp [put, hfirst, hf, History.redirected]
      · simp [hf, History.redirected]
    | some p =>
      obtain ⟨i, imported⟩ := p
      rw [hf, Option.map_some] at hfirst
      have himported := (History.step_lt_of_firstImport? hl.steps hf).1
      have hmax : max steps imported = steps := by omega
      refine hl.put_of_no_import rfl ?_ ?_ ?_
      · simpa [put, hfirst, hf, Registration.localExport?] using hl.localExports
      · simp [put, hfirst, hf, History.redirected]
      · simp [hf, hmax, History.redirected]
  | indirectExport e =>
    refine hl.put_of_no_import rfl ?_ ?_ ?_
    · simpa [put, Registration.localExport?] using hl.localExports
    · simp [put, History.redirected]
    · simp [History.redirected]
  | request | namespaceImport | starExport =>
    refine hl.put_of_no_import rfl ?_ ?_ ?_
    · simpa [put, Registration.localExport?] using hl.localExports
    · simp [put, History.redirected]
    · simp [History.redirected]

/-- A step at which a registration is accepted. -/
theorem put (hl : l.Reads h steps) (r : Registration) : (l.put r).Reads (h ++ [(r, steps)]) (steps + 1) where
  requests := by
    rw [put_requests, History.specifiers_snoc]
    cases r.specifier? with
    | none => simpa using hl.requests
    | some s => exact hl.requests.request s
  regularImports := by
    rw [put_regularImports, History.imports_snoc]
    cases r.regularImport? with
    | none => simpa using hl.regularImports
    | some i => exact hl.regularImports.push i
  namespaceImports := by
    rw [put_namespaceImports, History.namespaceImports_snoc, ← hl.namespaceImports]
    cases r.namespaceImport? <;> simp
  localExports := (hl.put_exports r).1
  indirectExports := (hl.put_exports r).2
  starExports := by
    rw [put_starExports, History.starExports_snoc, ← hl.starExports]
    cases r.starExport? <;> simp
  steps x hx := by
    rcases List.mem_append.mp hx with hx | hx
    · exact Nat.lt_succ_of_lt (hl.steps x hx)
    · rw [List.mem_singleton.mp hx]
      exact Nat.lt_succ_self steps

/-- **Every run keeps its reading.** -/
theorem run (hl : l.Reads h steps) (rs : List Registration) :
    (l.run rs).Reads (h ++ l.accepted steps rs) (steps + rs.length) := by
  induction rs generalizing l h steps with
  | nil => simpa [Linkage.run, accepted] using hl
  | cons r rs ih =>
    have hlength : steps + (r :: rs).length = steps + 1 + rs.length := by
      rw [List.length_cons]
      omega
    rw [hlength, accepted]
    split
    next hanswer =>
      rw [List.append_cons]
      exact ih (by rw [attempt_of_accepted hanswer]; exact hl.put r)
    next hanswer => exact ih (by rw [attempt_of_not_accepted hanswer]; exact hl.rest)

theorem of_run (rs : List Registration) :
    (Linkage.empty.run rs).Reads (Linkage.empty.accepted 0 rs) rs.length := by
  have hreads := Reads.empty.run rs
  rwa [List.nil_append, Nat.zero_add] at hreads

end Reads

/-- **The contents of a linkage are those that its history tells of,** in whatever order imports and
exports came. -/
theorem sections_run (rs : List Registration) :
    (Linkage.empty.run rs).sections = (Linkage.empty.accepted 0 rs).sections rs.length := by
  have hreads := Reads.empty.run rs
  rw [List.nil_append, Nat.zero_add] at hreads
  exact hreads.sections

/-- The name that is imported first has its exports redirected first, whichever was exported first. -/
example : (Linkage.empty.run [.request "m", .localExport ⟨"a", "x"⟩, .localExport ⟨"b", "y"⟩,
    .regularImport ⟨0, "q", "y"⟩, .regularImport ⟨0, "p", "x"⟩, .localExport ⟨"c", "x"⟩]).sections.indirectExports =
      [⟨"b", "q", 0⟩, ⟨"a", "p", 0⟩, ⟨"c", "p", 0⟩] := by decide +kernel

end ScriptAssembly.Linkage
