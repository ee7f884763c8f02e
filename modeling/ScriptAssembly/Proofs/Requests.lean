import ScriptAssembly.Proofs.Lists
import ScriptAssembly.Proofs.Registration
/-
Request indexes.

A request table is a list of specifiers with an index that is its inverse
(`RequestTable.Inverse`), and it grows at the end only; so a specifier has one
index, an index has one specifier, and neither changes any more. In a run of
registrations an index is given out by a request of its specifier and by
no other (`givesOut_iff`), and a registration that names an index is accepted
only behind such a request (`exists_givesOut`).
-/
namespace ScriptAssembly.Linkage

/-! ## Tables -/

namespace RequestTable

variable {t : RequestTable} {s specifier : String} {index : Nat}

/-- A table whose index leads from each specifier to its place. -/
def Inverse (t : RequestTable) : Prop :=
  ∀ (s : String) (index : Nat), t.indices[s]? = some index ↔ t.toList[index]? = some s

theorem inverse_empty : RequestTable.empty.Inverse := by
  simp [Inverse, empty, toList]

theorem toList_push (t : RequestTable) (specifier : String) (indices : Std.ExtTreeMap String Nat) :
    (RequestTable.mk (t.specifiers.push specifier) indices).toList = t.toList ++ [specifier] := Array.toList_push

/-- What a request finds, or adds at the end. -/
theorem request_cases (t : RequestTable) (specifier : String) :
    (∃ index, t.indices[specifier]? = some index ∧ t.request specifier = (index, t)) ∨
      t.indices[specifier]? = none ∧
        t.request specifier = (t.size, ⟨t.specifiers.push specifier, t.indices.insert specifier t.size⟩) := by
  unfold request
  cases h : t.indices[specifier]? with
  | some index => exact .inl ⟨index, rfl, rfl⟩
  | none => exact .inr ⟨rfl, rfl⟩

theorem Inverse.request (h : t.Inverse) (specifier : String) : (t.request specifier).2.Inverse := by
  obtain ⟨index, -, hrequest⟩ | ⟨hnone, hrequest⟩ := t.request_cases specifier
  · rw [hrequest]
    exact h
  · rw [hrequest]
    intro s index
    have hold : t.toList[index]? ≠ some specifier := by
      rw [Ne, ← h, hnone]
      simp
    rw [toList_push, getElem?_concat_iff, Std.ExtTreeMap.getElem?_insert]
    by_cases hs : specifier = s
    · subst hs
      have hlength : t.toList.length = t.size := rfl
      simp [hold, hlength, eq_comm]
    · simp [hs, ← h s index]

/-- The specifier that is requested is the one at the index that is given out. -/
theorem Inverse.getElem?_request (h : t.Inverse) (specifier : String) :
    (t.request specifier).2.toList[(t.request specifier).1]? = some specifier := by
  obtain ⟨index, hindex, hrequest⟩ | ⟨-, hrequest⟩ := t.request_cases specifier
  · rw [hrequest]
    exact (h specifier index).mp hindex
  · rw [hrequest]
    simp [toList, size]

theorem prefix_request (t : RequestTable) (specifier : String) : t.toList <+: (t.request specifier).2.toList := by
  rw [toList_request]
  split
  · exact List.prefix_refl _
  · exact List.prefix_append _ _

/-- What a request adds is its own specifier, at the index that it gives out. -/
theorem of_getElem?_request (h : (t.request specifier).2.toList[index]? = some s) :
    t.toList[index]? = some s ∨ s = specifier ∧ index = (t.request specifier).1 := by
  obtain ⟨index', -, hrequest⟩ | ⟨-, hrequest⟩ := t.request_cases specifier
  · rw [hrequest] at h
    exact .inl h
  · rw [hrequest, toList_push, getElem?_concat_iff] at h
    obtain hold | ⟨hindex, hs⟩ := h
    · exact .inl hold
    · exact .inr ⟨hs.symm, by rw [hrequest]; exact hindex⟩

end RequestTable

/-! ## Runs -/

variable {l l' : Linkage} {rs : List Registration} {s : String} {index : Nat}

theorem run_append (l : Linkage) (rs rs' : List Registration) : l.run (rs ++ rs') = (l.run rs).run rs' :=
  List.foldl_append

theorem inverse_run (rs : List Registration) : (Linkage.empty.run rs).requests.Inverse := by
  refine run_invariant (I := fun l => l.requests.Inverse) (fun {l r} _ h => ?_) rs RequestTable.inverse_empty
  rw [put_requests]
  cases r.specifier? with
  | none => exact h
  | some s => exact h.request s

/-- The specifiers stay where they are. -/
theorem prefix_run (l : Linkage) (rs : List Registration) : l.requests.toList <+: (l.run rs).requests.toList := by
  refine run_invariant (I := fun l' => l.requests.toList <+: l'.requests.toList) (fun {l' r} _ h => ?_) rs
    (List.prefix_refl _)
  rw [put_requests]
  cases r.specifier? with
  | none => exact h
  | some s => exact h.trans (l'.requests.prefix_request s)

theorem getElem?_run (h : l.requests.toList[index]? = some s) (rs : List Registration) :
    (l.run rs).requests.toList[index]? = some s := by
  obtain ⟨hlt, rfl⟩ := List.getElem?_eq_some_iff.mp h
  exact List.prefix_iff_getElem?.mp (prefix_run l rs) index hlt

theorem request_eq_ok : l.request s = .ok (index, l') ↔
    s.isEmpty = false ∧ (l.requests.request s).1 = index ∧ { l with requests := (l.requests.request s).2 } = l' := by
  unfold Linkage.request
  cases hs : s.isEmpty with
  | true => simp [require, bind, Except.bind]
  | false => simp [require, bind, Except.bind, pure, Except.pure]

/-- A run in which the request of a specifier is answered with an index. -/
def GivesOut (rs : List Registration) (s : String) (index : Nat) : Prop :=
  ∃ before after l', rs = before ++ .request s :: after ∧ (Linkage.empty.run before).request s = .ok (index, l')

theorem GivesOut.append (h : GivesOut rs s index) (rs' : List Registration) : GivesOut (rs ++ rs') s index := by
  obtain ⟨before, after, l', rfl, hrequest⟩ := h
  exact ⟨before, after ++ rs', l', by rw [List.append_assoc, List.cons_append], hrequest⟩

/-- An index has been given out for the specifier that is in its place, and for no other. -/
theorem givesOut_iff : GivesOut rs s index ↔ (Linkage.empty.run rs).requests.toList[index]? = some s := by
  constructor
  · intro h
    obtain ⟨before, after, l', rfl, hrequest⟩ := h
    obtain ⟨hs, hindex, hl'⟩ := request_eq_ok.mp hrequest
    have hattempt : (Linkage.empty.run before).attempt (.request s) = l' := by
      rw [attempt, register, hrequest]
      rfl
    have hrun : Linkage.empty.run (before ++ .request s :: after) = l'.run after := by
      rw [run_append, ← hattempt]
      rfl
    rw [hrun]
    refine getElem?_run ?_ after
    rw [← hl', ← hindex]
    exact (inverse_run before).getElem?_request s
  · intro h
    -- By the last registration: the specifier was there before it, or this is the request that put it there.
    induction rs using List.reverseRecOn with
    | nil => simp [Linkage.run, Linkage.empty, RequestTable.empty, RequestTable.toList] at h
    | append_singleton rs r ih =>
      have hrun : Linkage.empty.run (rs ++ [r]) = (Linkage.empty.run rs).attempt r := run_append _ rs [r]
      rw [hrun] at h
      by_cases ha : (Linkage.empty.run rs).answer r = .ok true
      · rw [attempt_of_accepted ha, put_requests] at h
        cases r with
        | request specifier =>
          obtain hold | ⟨rfl, rfl⟩ := RequestTable.of_getElem?_request h
          · exact (ih hold).append _
          · have hs := wellFormed_of_answer ha
            refine ⟨rs, [], _, rfl, request_eq_ok.mpr ⟨by simpa [Registration.wellFormed] using hs, rfl, rfl⟩⟩
        | regularImport | namespaceImport | localExport | indirectExport | starExport => exact (ih h).append _
      · rw [attempt_of_not_accepted ha] at h
        exact (ih h).append _

/-- A specifier of its own for each index. -/
theorem GivesOut.unique {s' : String} (h : GivesOut rs s index) (h' : GivesOut rs s' index) : s' = s := by
  rw [givesOut_iff] at h h'
  exact Option.some.inj (h'.symm.trans h)

/-! ## Registrations that name an index -/

/-- The request that a registration names. -/
def Registration.request? : Registration → Option Nat
  | regularImport i => some i.request
  | namespaceImport i => some i.request
  | indirectExport e => some e.request
  | starExport e => some e.request
  | request _ | localExport _ => none

/-- A run at some step of which a registration is accepted, behind the given part of the run. -/
def AcceptsAfter (rs before : List Registration) (r : Registration) : Prop :=
  ∃ after, rs = before ++ r :: after ∧ (Linkage.empty.run before).answer r = .ok true

theorem Registration.request_lt {r : Registration} {requests : Nat} (h : r.wellFormed requests = true)
    (hindex : r.request? = some index) : index < requests := by
  cases r <;> simp only [wellFormed, Bool.and_eq_true, decide_eq_true_eq] at h <;> cases hindex
  case starExport => exact h
  all_goals exact h.2

/-- An index is named only when it has been given out. -/
theorem exists_givesOut {r : Registration} (h : (Linkage.empty.run rs).answer r = .ok true)
    (hindex : r.request? = some index) : ∃ s, GivesOut rs s index := by
  have hlt : index < (Linkage.empty.run rs).requests.toList.length :=
    Registration.request_lt (wellFormed_of_answer h) hindex
  exact ⟨_, givesOut_iff.mpr (List.getElem?_eq_getElem hlt)⟩

end ScriptAssembly.Linkage
