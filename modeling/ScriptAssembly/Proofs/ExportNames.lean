import Mathlib.Data.List.Nodup
import ScriptAssembly.Proofs.History
/-
Export names are used once.

Every accepted registration that exports a name leads to one export of that
name, wherever the export is kept: a local export that is redirected keeps
its name, whether it is redirected at once or by a later import, and the
groups that are stored are those that are listed. So the exports of a linkage
have the names that its history tells of (`Reads.exportNames_perm`), the
check of a new name looks at exactly these (`Reads.isFree_iff`), and since
nothing is taken out of a history, a name that is taken remains so
(`Reads.isFree_run`).
-/
namespace ScriptAssembly

/-- The registration of an export of any shape. -/
def Export.registration : Export → Linkage.Registration
  | localExport e => .localExport e
  | indirectExport e => .indirectExport e
  | starExport e => .starExport e

theorem Export.exportName?_registration (x : Export) : x.registration.exportName? = x.exportName? := by
  cases x <;> rfl

namespace Linkage

/-! ## Registrations under a name -/

theorem addExport_eq_register (l : Linkage) (x : Export) : l.addExport x = l.register x.registration := by
  cases x <;> rfl

/-- The outcome of a registration under a name: either it is malformed, or the name decides. -/
def Decided (l : Linkage) (r : Registration) (name : String) (outcome : Except Refusal Linkage) : Prop :=
  (∃ cause, outcome = .error (.breach cause)) ∨
    outcome = if l.isFree name then .ok (l.put r) else .error (.duplicateExport ⟨name⟩)

theorem register_decided (l : Linkage) {r : Registration} {name : String} (hname : r.exportName? = some name) :
    l.Decided r name (l.register r) := by
  have hout := register_outcome l r
  generalize l.register r = x at hout ⊢
  cases hout with
  | accepted _ hfree => exact .inr (by rw [hfree name hname, if_pos rfl])
  | @duplicate name' _ hname' htaken =>
    obtain rfl : name' = name := Option.some.inj (hname'.symm.trans hname)
    exact .inr (by simp [htaken])
  | breach => exact .inl ⟨_, rfl⟩

/-- The caller is told whether the name was free, whatever table the export comes to. -/
theorem answer_export {l : Linkage} {r : Registration} {name : String} {accepted : Bool}
    (hname : r.exportName? = some name) (hanswer : l.answer r = .ok accepted) : accepted = l.isFree name := by
  unfold answer at hanswer
  rcases register_decided l hname with ⟨cause, hbreach⟩ | hdecided
  · rw [hbreach] at hanswer
    cases hanswer
  · rw [hdecided] at hanswer
    cases hfree : l.isFree name <;> rw [hfree] at hanswer <;> exact (Except.ok.inj hanswer).symm

/-! ## Contents in any order -/

/-- Elements sorted into groups are the same elements. -/
theorem flatMap_filter_perm {α κ : Type} [BEq κ] [LawfulBEq κ] (key : α → κ) {keys : List κ} (hn : keys.Nodup)
    {xs : List α} (h : ∀ x ∈ xs, key x ∈ keys) : (keys.flatMap fun k => xs.filter (key · == k)).Perm xs := by
  induction keys generalizing xs with
  | nil =>
    cases xs with
    | nil => exact .nil
    | cons x xs => exact absurd (h x List.mem_cons_self) List.not_mem_nil
  | cons k keys ih =>
    rw [List.nodup_cons] at hn
    have hrest : (keys.flatMap fun k => xs.filter (key · == k)) =
        keys.flatMap fun k' => (xs.filter fun x => !key x == k).filter (key · == k') := by
      refine List.flatMap_congr fun k' hk' => ?_
      rw [List.filter_filter]
      refine List.filter_congr fun x _ => ?_
      by_cases hx : key x = k'
      · have hne : k' ≠ k := fun heq => hn.1 (heq ▸ hk')
        simp [hx, hne]
      · simp [hx]
    rw [List.flatMap_cons, hrest]
    refine (List.Perm.append_left _ (ih hn.2 fun x hx => ?_)).trans (List.filter_append_perm (key · == k) xs)
    obtain ⟨hx, hne⟩ := List.mem_filter.mp hx
    exact (List.mem_cons.mp (h x hx)).resolve_left (by simpa using hne)

theorem grouped_perm (es : List LocalExport) : (grouped es).Perm es :=
  flatMap_filter_perm LocalExport.localName (eraseDups_nodup _) fun _ he =>
    List.mem_eraseDups.mpr (List.mem_map_of_mem he)

theorem byStep_perm {α : Type} {steps : Nat} {xs : List (α × Nat)} (h : ∀ x ∈ xs, x.2 < steps) :
    (byStep steps xs).Perm (xs.map (·.1)) := by
  have hall := (flatMap_filter_perm (·.2) List.nodup_range fun x hx => List.mem_range.mpr (h x hx)).map (·.1)
  rwa [List.map_flatMap] at hall

/-! ## The names of a history -/

namespace History

/-- The names that registrations export. -/
def exportNames (h : History) : List String := h.filterMap (·.1.exportName?)

theorem exportNames_snoc (h : History) (r : Registration) (step : Nat) :
    History.exportNames (h ++ [(r, step)]) = h.exportNames ++ r.exportName?.toList := by
  simp only [exportNames, List.filterMap_append]
  cases hr : r.exportName? <;> simp [hr]

/-- An export is the module's own or redirected, whatever the first imports are. -/
theorem exportNames_perm_of (first? : String → Option (Import × Nat)) (h : History) :
    h.exportNames.Perm ((h.localExports.filter fun e => (first? e.localName).isNone).map (·.exportName) ++
      (h.filterMap (redirected first?)).map (·.1.exportName)) := by
  induction h with
  | nil => exact .nil
  | cons x h ih =>
    obtain ⟨r, step⟩ := x
    cases r with
    | localExport e =>
      have hlocal : History.localExports ((.localExport e, step) :: h) = e :: History.localExports h := rfl
      rw [hlocal]
      cases hf : first? e.localName with
      | none =>
        have hown : redirected first? (.localExport e, step) = none := by simp [redirected, hf]
        rw [List.filterMap_cons_none hown, List.filter_cons_of_pos (by simp [hf])]
        exact ih.cons e.exportName
      | some p =>
        have hredirected : redirected first? (.localExport e, step) = some (e.redirect p.1, max step p.2) := by
          simp [redirected, hf]
        rw [List.filterMap_cons_some hredirected, List.filter_cons_of_neg (by simp [hf])]
        exact (ih.cons e.exportName).trans List.perm_middle.symm
    | indirectExport e => exact (ih.cons e.exportName).trans List.perm_middle.symm
    | request | regularImport | namespaceImport | starExport => exact ih

theorem exportNames_perm (h : History) :
    h.exportNames.Perm (h.ownExports.map (·.exportName) ++ h.indirectExports.map (·.1.exportName)) :=
  exportNames_perm_of h.firstImport? h

end History

/-! ## The names of a linkage -/

theorem exportNames_exports (l : Linkage) : l.exports.filterMap Export.exportName? =
    l.localExports.toList.map (·.exportName) ++ l.indirectExports.toList.map (·.exportName) := by
  have hstar : (l.starExports.toList.map Export.starExport).filterMap Export.exportName? = [] := by
    simp [Export.exportName?]
  rw [exports, List.filterMap_append, hstar, List.append_nil, List.filterMap_append, List.filterMap_map,
    List.filterMap_map]
  exact congrArg₂ (· ++ ·) (List.filterMap_eq_map ▸ rfl) (List.filterMap_eq_map ▸ rfl)

namespace Reads

variable {l : Linkage} {h : History} {steps : Nat}

/-- **The exports of a linkage** have the names of its history. -/
theorem exportNames_perm (hl : l.Reads h steps) : (l.exports.filterMap Export.exportName?).Perm h.exportNames := by
  have hown := (grouped_perm h.ownExports).map (·.exportName)
  have hindirect := (byStep_perm (History.step_lt_of_indirectExports hl.steps)).map (·.exportName)
  rw [List.map_map] at hindirect
  rw [exportNames_exports, hl.localExports.toList, hl.indirectExports]
  exact (hown.append hindirect).trans h.exportNames_perm.symm

/-- The check of a name goes through the exports that are listed. -/
theorem isFree_iff_exports (hl : l.Reads h steps) (name : String) :
    l.isFree name = true ↔ name ∉ l.exports.filterMap Export.exportName? := by
  have hstored : ∀ e, e ∈ l.localExports.stored ↔ e ∈ l.localExports.toList := fun e => by
    rw [hl.localExports.mem_stored, hl.localExports.toList, (grouped_perm _).mem_iff]
  rw [exportNames_exports]
  simp [isFree, hstored, ← Array.any_toList]

/-- A name is free as long as no accepted registration exports it. -/
theorem isFree_iff (hl : l.Reads h steps) (name : String) : l.isFree name = true ↔ name ∉ h.exportNames := by
  rw [hl.isFree_iff_exports, hl.exportNames_perm.mem_iff]

theorem isFree_eq_false_iff (hl : l.Reads h steps) (name : String) :
    l.isFree name = false ↔ ∃ x ∈ l.exports, x.exportName? = some name := by
  rw [← Bool.not_eq_true, hl.isFree_iff_exports, not_not, List.mem_filterMap]

/-- A registration is accepted under a new name only, so no name comes twice. -/
theorem nodup_exportNames (hl : l.Reads h steps) (hn : h.exportNames.Nodup) (rs : List Registration) :
    (History.exportNames (h ++ l.accepted steps rs)).Nodup := by
  induction rs generalizing l h steps with
  | nil => simpa [accepted] using hn
  | cons r rs ih =>
    rw [accepted]
    split
    next hanswer =>
      rw [List.append_cons]
      refine ih (by rw [attempt_of_accepted hanswer]; exact hl.put r) ?_
      rw [History.exportNames_snoc]
      cases hname : r.exportName? with
      | none => simpa using hn
      | some name =>
        have hnew := (hl.isFree_iff name).mp (answer_export hname hanswer).symm
        simpa [List.nodup_append] using ⟨hn, fun a ha heq => hnew (heq ▸ ha)⟩
    next hanswer => exact ih (by rw [attempt_of_not_accepted hanswer]; exact hl.rest) hn

theorem isFree_run (hl : l.Reads h steps) {name : String} (htaken : l.isFree name = false) (rs : List Registration) :
    (l.run rs).isFree name = false := by
  rw [← Bool.not_eq_true, hl.isFree_iff, not_not] at htaken
  rw [← Bool.not_eq_true, (hl.run rs).isFree_iff, not_not, History.exportNames, List.filterMap_append]
  exact List.mem_append_left _ htaken

end Reads

end Linkage

end ScriptAssembly
