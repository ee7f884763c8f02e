import Mathlib.Data.List.Nodup
import ScriptAssembly.Proofs.Except
import ScriptAssembly.Proofs.ExportNames
/-
The order of imports and exports does not matter.

Two registrations are bound to each other if they export one name, or if they
are regular imports of one local name; only such registrations must keep
their order. Whether a registration is accepted then depends on nothing but
the names that were exported before it and are bound to it
(`answers_of_reordering`), and the contents of a linkage can be read off its
history in any order, as long as every local name has the same first import
(`Reads.sameContents`).
-/
namespace ScriptAssembly.Linkage

namespace Registration

/-- The local name that a regular import binds. -/
def boundName? (r : Registration) : Option String := r.regularImport?.map (·.localName)

/-- Registrations whose order matters. -/
def Bound (r r' : Registration) : Prop :=
  (r.exportName?.isSome ∧ r.exportName? = r'.exportName?) ∨ (r.boundName?.isSome ∧ r.boundName? = r'.boundName?)

instance (r r' : Registration) : Decidable (r.Bound r') := inferInstanceAs (Decidable (_ ∨ _))

end Registration

/-- An order of the places of a list that leaves registrations in order which are bound to each other. -/
structure Reordering (rs : List Registration) (order : List (Fin rs.length)) : Prop where
  perm : order.Perm (List.finRange rs.length)
  keeps : order.Pairwise fun i j => Registration.Bound rs[i] rs[j] → i < j

/-- Two linkages with the same entries, and the same names for new exports. -/
structure SameContents (l l' : Linkage) : Prop where
  regularImports : l.regularImports.toList.Perm l'.regularImports.toList
  namespaceImports : l.namespaceImports.toList.Perm l'.namespaceImports.toList
  localExports : l.localExports.toList.Perm l'.localExports.toList
  indirectExports : l.indirectExports.toList.Perm l'.indirectExports.toList
  starExports : l.starExports.toList.Perm l'.starExports.toList
  isFree : ∀ name, l.isFree name = l'.isFree name

/-! ## Contents in any order -/

namespace History

variable {h h' : History}

theorem imports_eq : h.imports.map (·.1) = h.filterMap (·.1.regularImport?) := by
  rw [imports, List.map_filterMap]
  refine List.filterMap_congr fun x _ => ?_
  cases x.1.regularImport? <;> rfl

theorem firstImport?_append (name : String) : (History.firstImport? (h ++ h') name).map (·.1) =
    ((h.imports.map (·.1)).find? (·.localName == name)).or
      (((h'.map (·.1)).filterMap Registration.regularImport?).find? (·.localName == name)) := by
  have hfirst : ∀ h : History, (h.firstImport? name).map (·.1) = (h.imports.map (·.1)).find? (·.localName == name) := by
    intro h
    rw [firstImport?, List.find?_map]
    rfl
  rw [hfirst, imports_eq, imports_eq, List.filterMap_append, List.find?_append, List.filterMap_map]
  rfl

/-- The indirect export that a registration leads to, without its step. -/
def redirect? (first? : String → Option Import) : Registration → Option IndirectExport
  | .indirectExport e => some e
  | .localExport e => (first? e.localName).map e.redirect
  | _ => none

theorem indirectExports_eq :
    h.indirectExports.map (·.1) = h.filterMap (redirect? (fun name => (h.firstImport? name).map (·.1)) ·.1) := by
  rw [indirectExports, List.map_filterMap]
  refine List.filterMap_congr fun x _ => ?_
  obtain ⟨r, step⟩ := x
  cases r with
  | localExport e =>
    simp only [redirected, redirect?, Option.map_map]
    rfl
  | indirectExport | request | regularImport | namespaceImport | starExport => rfl

end History

namespace Reads

variable {l l' : Linkage} {h h' : History} {steps steps' : Nat}

/-- **Histories with the same registrations** and the same first imports have the same contents. -/
theorem sameContents (hl : l.Reads h steps) (hl' : l'.Reads h' steps') (hperm : (h.map (·.1)).Perm (h'.map (·.1)))
    (hfirst : ∀ name, (h.firstImport? name).map (·.1) = (h'.firstImport? name).map (·.1)) : SameContents l l' := by
  have hnone : ∀ name, (h.firstImport? name).isNone = (h'.firstImport? name).isNone := fun name => by
    rw [← Option.isNone_map (f := fun p : Import × Nat => p.1), hfirst, Option.isNone_map]
  have hall : ∀ {α : Type} (f : Registration → Option α), (h.filterMap (f ·.1)).Perm (h'.filterMap (f ·.1)) := by
    intro α f
    have hf := hperm.filterMap f
    rwa [List.filterMap_map, List.filterMap_map] at hf
  refine ⟨?_, ?_, ?_, ?_, ?_, fun name => ?_⟩
  · rw [hl.regularImports.toList, hl'.regularImports.toList, History.imports_eq, History.imports_eq]
    exact hall Registration.regularImport?
  · rw [hl.namespaceImports, hl'.namespaceImports]
    exact hall Registration.namespaceImport?
  · rw [hl.localExports.toList, hl'.localExports.toList]
    refine (grouped_perm _).trans (.trans ?_ (grouped_perm _).symm)
    rw [History.ownExports, History.ownExports]
    simp only [hnone]
    exact (hall Registration.localExport?).filter _
  · rw [hl.indirectExports, hl'.indirectExports]
    refine (byStep_perm (History.step_lt_of_indirectExports hl.steps)).trans
      (.trans ?_ (byStep_perm (History.step_lt_of_indirectExports hl'.steps)).symm)
    rw [History.indirectExports_eq, History.indirectExports_eq, funext hfirst]
    exact hall (History.redirect? fun name => (h'.firstImport? name).map (·.1))
  · rw [hl.starExports, hl'.starExports]
    exact hall Registration.starExport?
  · rw [Bool.eq_iff_iff, hl.isFree_iff, hl'.isFree_iff]
    exact not_congr (hall Registration.exportName?).mem_iff

end Reads

/-! ## Answers in any order -/

theorem attempt_requests (l : Linkage) {r : Registration} (hr : r.specifier? = none) :
    (l.attempt r).requests = l.requests := by
  by_cases ha : l.answer r = .ok true
  · rw [attempt_of_accepted ha, put_requests, hr]
    rfl
  · rw [attempt_of_not_accepted ha]

theorem RequestTable.size_request (t : RequestTable) (specifier : String) : t.size ≤ (t.request specifier).2.size := by
  unfold RequestTable.request
  split
  · exact Nat.le_refl _
  · simp [RequestTable.size]

theorem Sound.put {l : Linkage} {r : Registration} (hr : r.wellFormed l.requests.size = true) (hl : l.Sound) :
    (l.put r).Sound := by
  have hsize : l.requests.size ≤ (l.put r).requests.size := by
    rw [put_requests]
    cases r.specifier? with
    | none => exact Nat.le_refl _
    | some s => exact RequestTable.size_request _ s
  have hmem : ∀ i, i ∈ (l.put r).regularImports.toList → i ∈ l.regularImports.toList ∨ r = .regularImport i := by
    intro i hi
    rw [put_regularImports] at hi
    cases r with
    | regularImport i' =>
      rcases List.mem_append.mp (ImportTable.toList_push _ i' ▸ hi) with hi | hi
      · exact .inl hi
      · exact .inr (by rw [List.mem_singleton.mp hi])
    | request | namespaceImport | localExport | indirectExport | starExport => exact .inl hi
  intro i hi
  rcases hmem i hi with hi | rfl
  · exact Registration.wellFormed_mono (hl i hi) hsize
  · exact Registration.wellFormed_mono hr hsize

theorem Sound.run {l : Linkage} (hl : l.Sound) (rs : List Registration) : (l.run rs).Sound :=
  run_invariant Sound.put rs hl

/-- A linkage that was come to by a run, with so many requests. -/
structure Settled (l : Linkage) (requests : Nat) : Prop where
  reads : ∃ h steps, l.Reads h steps
  sound : l.Sound
  requests : l.requests.size = requests

namespace Settled

variable {l : Linkage} {requests : Nat} {r : Registration}

theorem run (rs : List Registration) : (Linkage.empty.run rs).Settled (Linkage.empty.run rs).requests.size where
  reads := ⟨_, _, Reads.empty.run rs⟩
  sound := Sound.run (by simp [Sound, Linkage.empty, ImportTable.empty, ImportTable.toList]) rs
  requests := rfl

theorem answer (hl : l.Settled requests) (hr : r.wellFormed requests = true) :
    l.answer r = .ok (r.exportName?.all l.isFree) :=
  answer_of_wellFormed hl.sound (hl.requests ▸ hr)

theorem attempt (hl : l.Settled requests) (hr : r.specifier? = none) : (l.attempt r).Settled requests where
  reads := by
    obtain ⟨h, steps, hreads⟩ := hl.reads
    exact ⟨_, _, hreads.run [r]⟩
  sound := attempt_invariant Sound.put r hl.sound
  requests := by rw [attempt_requests l hr, hl.requests]

/-- Accepted or not, a well-formed export leaves its name taken, and no other name changes. -/
theorem isFree_attempt (hl : l.Settled requests) (hr : r.wellFormed requests = true) (name : String) :
    (l.attempt r).isFree name = true ↔ l.isFree name = true ∧ r.exportName? ≠ some name := by
  have hanswer := hl.answer hr
  by_cases ha : l.answer r = .ok true
  · obtain ⟨h, steps, hreads⟩ := hl.reads
    rw [attempt_of_accepted ha, (hreads.put r).isFree_iff, hreads.isFree_iff, History.exportNames_snoc,
      List.mem_append, not_or, Option.mem_toList]
  · rw [attempt_of_not_accepted ha]
    refine ⟨fun hfree => ⟨hfree, fun hname => ha ?_⟩, fun h => h.1⟩
    rw [hanswer, hname, Option.all_some, hfree]

end Settled

/-- Whether a registration of a run is accepted: its export name was free before, and no registration
in front of it exports the same name. -/
def accepts (l : Linkage) (rs : List Registration) (i : Fin rs.length) : Bool :=
  rs[i].exportName?.all fun name => l.isFree name && decide (∀ j, j < i → rs[j].exportName? ≠ some name)

section Order

variable {l : Linkage} {requests : Nat} {rs : List Registration} {order : List (Fin rs.length)}

/-- Those in front of a registration in the new order that export its name are those that were so before. -/
theorem Reordering.taken_iff (ho : Reordering rs order) {done rest : List (Fin rs.length)} {i : Fin rs.length}
    (hsplit : order = done ++ i :: rest) {name : String} (hname : rs[i].exportName? = some name) :
    (∀ j ∈ done, rs[j].exportName? ≠ some name) ↔ ∀ j, j < i → rs[j].exportName? ≠ some name := by
  have hkeeps := ho.keeps
  rw [hsplit, List.pairwise_append, List.pairwise_cons] at hkeeps
  obtain ⟨-, ⟨hafter, -⟩, hbefore⟩ := hkeeps
  constructor
  · intro hdone j hj hnamej
    have hmem : j ∈ done ++ i :: rest := hsplit ▸ ho.perm.mem_iff.mpr (List.mem_finRange j)
    rcases List.mem_append.mp hmem with hm | hm
    · exact hdone j hm hnamej
    · rcases List.mem_cons.mp hm with rfl | hm
      · exact Nat.lt_irrefl _ hj
      · exact Nat.lt_asymm hj (hafter j hm (.inl ⟨by rw [hname]; rfl, hname.trans hnamej.symm⟩))
  · intro hall j hj hnamej
    exact hall j (hbefore j hj i List.mem_cons_self (.inl ⟨by rw [hnamej]; rfl, hnamej.trans hname.symm⟩)) hnamej

theorem answers_rest (hspecifier : ∀ r ∈ rs, r.specifier? = none) (hwell : ∀ r ∈ rs, r.wellFormed requests = true)
    (ho : Reordering rs order) {done rest : List (Fin rs.length)} (hsplit : order = done ++ rest) {l' : Linkage}
    (hl' : l'.Settled requests)
    (hfree : ∀ name, l'.isFree name = true ↔ l.isFree name = true ∧ ∀ j ∈ done, rs[j].exportName? ≠ some name) :
    l'.answers (rest.map fun i => rs[i]) = rest.map fun i => .ok (l.accepts rs i) := by
  induction rest generalizing done l' with
  | nil => rfl
  | cons i rest ih =>
    have hmem : rs[i] ∈ rs := List.getElem_mem i.isLt
    have hi : l'.answer rs[i] = .ok (l.accepts rs i) := by
      rw [hl'.answer (hwell _ hmem), accepts]
      cases hname : rs[i].exportName? with
      | none => rfl
      | some name =>
        rw [Option.all_some, Option.all_some]
        congr 1
        rw [Bool.eq_iff_iff, hfree, ho.taken_iff hsplit hname]
        simp
    rw [List.map_cons, List.map_cons, answers, hi]
    congr 1
    have hnext : order = (done ++ [i]) ++ rest := by rw [hsplit, List.append_cons]
    refine ih hnext (hl'.attempt (hspecifier _ hmem)) fun name => ?_
    rw [hl'.isFree_attempt (hwell _ hmem), hfree, and_assoc]
    simp only [List.mem_append, List.mem_singleton, or_imp, forall_and, forall_eq]

/-- In every order that keeps bound registrations in order, each has the same answer. -/
theorem answers_of_reordering (hl : l.Settled requests) (hspecifier : ∀ r ∈ rs, r.specifier? = none)
    (hwell : ∀ r ∈ rs, r.wellFormed requests = true) (ho : Reordering rs order) :
    l.answers (order.map fun i => rs[i]) = order.map fun i => .ok (l.accepts rs i) :=
  answers_rest hspecifier hwell ho (List.nil_append order).symm hl (by simp)

end Order

/-! ## Histories in any order -/

/-- The accepted registrations are those that were told so. -/
theorem accepted_of_answers {ι : Type} {f : ι → Registration} {v : ι → Bool} {order : List ι} {l : Linkage}
    (h : l.answers (order.map f) = order.map fun i => .ok (v i)) (step : Nat) :
    (l.accepted step (order.map f)).map (·.1) = (order.filter v).map f := by
  induction order generalizing l step with
  | nil => rfl
  | cons i order ih =>
    simp only [List.map_cons, answers, List.cons.injEq] at h
    obtain ⟨hi, horder⟩ := h
    rw [List.map_cons, accepted, List.filter_cons]
    cases hv : v i with
    | true =>
      rw [hv] at hi
      simp only [hi, if_true, List.map_cons]
      rw [ih horder]
    | false =>
      rw [hv] at hi
      simp only [hi, Bool.false_eq_true, if_false]
      exact ih horder (step + 1)

/-- A run without breaches has well-formed registrations only. -/
theorem wellFormed_of_answers {rs : List Registration} {l : Linkage} (hspecifier : ∀ r ∈ rs, r.specifier? = none)
    (hanswers : ∀ a ∈ l.answers rs, a.isOk = true) : ∀ r ∈ rs, r.wellFormed l.requests.size = true := by
  induction rs generalizing l with
  | nil => simp
  | cons r rs ih =>
    simp only [List.mem_cons, forall_eq_or_imp, answers] at hspecifier hanswers ⊢
    obtain ⟨b, hb⟩ := exists_ok_of_isOk hanswers.1
    refine ⟨wellFormed_of_answer hb, ?_⟩
    have hrest := ih hspecifier.2 hanswers.2
    rwa [attempt_requests l hspecifier.1] at hrest

section Order

variable {l : Linkage} {requests : Nat} {rs : List Registration} {order : List (Fin rs.length)}

/-- Leaving everything as it was is a reordering. -/
theorem Reordering.same (rs : List Registration) : Reordering rs (List.finRange rs.length) where
  perm := .refl _
  keeps := by
    refine List.Pairwise.imp ?_ (List.pairwise_lt_finRange rs.length)
    intro i j hij _
    exact hij

/-- The regular imports of a local name stay in order. -/
theorem Reordering.filter_eq (ho : Reordering rs order) {q : Fin rs.length → Bool} (name : String)
    (hq : ∀ i, q i = true → rs[i].boundName? = some name) :
    order.filter q = (List.finRange rs.length).filter q := by
  have hnew : (order.filter q).Pairwise (· < ·) := by
    refine List.pairwise_filter.mpr (ho.keeps.imp fun {i j} hkeep hi hj => hkeep (.inr ?_))
    exact ⟨by rw [hq i hi]; rfl, (hq i hi).trans (hq j hj).symm⟩
  have hold : ((List.finRange rs.length).filter q).Pairwise (· < ·) := (List.pairwise_lt_finRange rs.length).filter q
  have hasymm : ∀ i j, i ∈ order.filter q → j ∈ (List.finRange rs.length).filter q → i < j → j < i → i = j :=
    fun i j _ _ hij hji => absurd hij (Nat.lt_asymm hji)
  exact List.Perm.eq_of_pairwise hasymm hnew hold (ho.perm.filter q)

/-- Accepted or not, the first import of a local name is the same in every order. -/
theorem Reordering.find?_eq (ho : Reordering rs order) (v : Fin rs.length → Bool) (name : String) :
    (((order.filter v).map fun i => rs[i]).filterMap Registration.regularImport?).find? (·.localName == name) =
      ((((List.finRange rs.length).filter v).map fun i => rs[i]).filterMap Registration.regularImport?).find?
        (·.localName == name) := by
  have hfilter : ∀ order : List (Fin rs.length),
      (((order.filter v).map fun i => rs[i]).filterMap Registration.regularImport?).filter (·.localName == name) =
        (order.filter fun i => v i && rs[i].regularImport?.any (·.localName == name)).filterMap
          fun i => rs[i].regularImport? := by
    intro order
    rw [List.filterMap_map, List.filter_filterMap, List.filterMap_filter, List.filterMap_filter]
    refine List.filterMap_congr fun i _ => ?_
    cases hv : v i with
    | false => rfl
    | true =>
      simp only [Function.comp_apply, if_true, Bool.true_and]
      cases hr : rs[i].regularImport? with
      | none => rfl
      | some entry => by_cases hn : entry.localName = name <;> simp [hn, Option.filter]
  rw [← List.head?_filter, ← List.head?_filter, hfilter, hfilter, ho.filter_eq name]
  intro i hi
  simp only [Bool.and_eq_true, Option.any_eq_true, beq_iff_eq] at hi
  obtain ⟨-, entry, hentry, hname⟩ := hi
  rw [Registration.boundName?, hentry, Option.map_some, hname]

end Order

/-- **Imports and exports can be registered in any order** in which those that are bound to each other
keep theirs: every registration has the same answer as before, and the linkage has the same contents. -/
theorem run_reordering (before rs : List Registration) (hspecifier : ∀ r ∈ rs, r.specifier? = none)
    (hanswers : ∀ a ∈ (Linkage.empty.run before).answers rs, a.isOk = true) {order : List (Fin rs.length)}
    (ho : Reordering rs order) :
    ((Linkage.empty.run before).answers (order.map fun i => rs[i])).map some =
        (order.map fun i => ((Linkage.empty.run before).answers rs)[i.val]?) ∧
      SameContents ((Linkage.empty.run before).run rs)
        ((Linkage.empty.run before).run (order.map fun i => rs[i])) := by
  have hl := Settled.run before
  generalize Linkage.empty.run before = l at hl hanswers ⊢
  have hwell := wellFormed_of_answers hspecifier hanswers
  -- The old order is a reordering too, so the answers of both runs are given in one form.
  have hsame : ((List.finRange rs.length).map fun i => rs[i]) = rs := List.map_getElem_finRange rs
  have hnew := answers_of_reordering hl hspecifier hwell ho
  have hold := answers_of_reordering hl hspecifier hwell (Reordering.same rs)
  obtain ⟨h, steps, hreads⟩ := hl.reads
  have hhistory := accepted_of_answers hnew steps
  have hhistory' := accepted_of_answers hold steps
  rw [hsame] at hold hhistory'
  constructor
  · rw [hnew, hold, List.map_map]
    refine List.map_congr_left fun i _ => ?_
    simp
  · refine (hreads.run rs).sameContents (hreads.run (order.map fun i => rs[i])) ?_ fun name => ?_
    · rw [List.map_append, List.map_append, hhistory, hhistory']
      exact (((ho.perm.filter _).map _).append_left _).symm
    · rw [History.firstImport?_append, History.firstImport?_append, hhistory, hhistory', ho.find?_eq]

/-- Exports and imports of one local name, and an export name that is used twice. -/
def crossing : List Registration :=
  [.localExport ⟨"a", "x"⟩, .regularImport ⟨0, "p", "x"⟩, .regularImport ⟨1, "q", "x"⟩, .localExport ⟨"a", "z"⟩,
    .indirectExport ⟨"b", "r", 1⟩, .starExport ⟨0⟩, .localExport ⟨"c", "x"⟩]

def crossingOrder : List (Fin crossing.length) := ([6, 1, 5, 0, 2, 4, 3] : List (Fin 7))

/-- The first export of `x` comes in front of its imports in one order and between them in the other; the
last one comes behind them and in front of them. -/
theorem run_reordering_crossing :
    Reordering crossing crossingOrder ∧
      ((Linkage.empty.run [.request "m", .request "n"]).answers crossing).map Except.toOption =
        [some true, some true, some true, some false, some true, some true, some true] ∧
      ((Linkage.empty.run [.request "m", .request "n"]).answers (crossingOrder.map fun i => crossing[i])).map some =
        (crossingOrder.map fun i => ((Linkage.empty.run [.request "m", .request "n"]).answers crossing)[i.val]?) ∧
      SameContents ((Linkage.empty.run [.request "m", .request "n"]).run crossing)
        ((Linkage.empty.run [.request "m", .request "n"]).run (crossingOrder.map fun i => crossing[i])) := by
  have ho : Reordering crossing crossingOrder := ⟨by decide, by decide⟩
  exact ⟨ho, by decide +kernel, run_reordering [.request "m", .request "n"] crossing (by decide) (by decide +kernel) ho⟩

end ScriptAssembly.Linkage
