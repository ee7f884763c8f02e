import ScriptAssembly.Linkage.Registration
/-
What a registration does to a linkage, and what its caller is told.

An accepted registration has one effect (`put`), a refused one has none.
Whether it is accepted is a matter of its own shape (`wellFormed`) and of its
export name being free; `register_outcome` says so for all six of them.
-/
namespace ScriptAssembly.Linkage

namespace Registration

/-- The name under which a registration exports something; a star export has none. -/
def exportName? : Registration → Option String
  | localExport e => some e.exportName
  | indirectExport e => some e.exportName
  | request _ | regularImport _ | namespaceImport _ | starExport _ => none

def specifier? : Registration → Option String
  | request s => some s
  | regularImport _ | namespaceImport _ | localExport _ | indirectExport _ | starExport _ => none

def regularImport? : Registration → Option Import
  | regularImport i => some i
  | request _ | namespaceImport _ | localExport _ | indirectExport _ | starExport _ => none

def namespaceImport? : Registration → Option Import
  | namespaceImport i => some i
  | request _ | regularImport _ | localExport _ | indirectExport _ | starExport _ => none

def localExport? : Registration → Option LocalExport
  | localExport e => some e
  | request _ | regularImport _ | namespaceImport _ | indirectExport _ | starExport _ => none

def starExport? : Registration → Option StarExport
  | starExport e => some e
  | request _ | regularImport _ | namespaceImport _ | localExport _ | indirectExport _ => none

/-- Whether the names are there that must be, and the request is one of so many. -/
def wellFormed (requests : Nat) : Registration → Bool
  | request s => !s.isEmpty
  | regularImport i => !i.importName.isEmpty && !i.localName.isEmpty && decide (i.request < requests)
  | namespaceImport i => i.importName.isEmpty && !i.localName.isEmpty && decide (i.request < requests)
  | localExport e => !e.localName.isEmpty && !e.exportName.isEmpty
  | indirectExport e => !e.importName.isEmpty && !e.exportName.isEmpty && decide (e.request < requests)
  | starExport e => decide (e.request < requests)

theorem wellFormed_mono {r : Registration} {m n : Nat} (h : r.wellFormed m = true) (hmn : m ≤ n) : r.wellFormed n = true := by
  cases r <;> simp only [wellFormed, Bool.and_eq_true, decide_eq_true_eq] at h ⊢
  case request | localExport => exact h
  case starExport => omega
  all_goals exact ⟨h.1, Nat.lt_of_lt_of_le h.2 hmn⟩

end Registration

/-- What the caller of a registration is told: whether it was accepted, unless it is malformed. -/
def answer (l : Linkage) (r : Registration) : Except Breach Bool :=
  match l.register r with
  | .ok _ => .ok true
  | .error (.duplicateExport _) => .ok false
  | .error (.breach b) => .error b

/-- The answers of a run, one after another. -/
def answers (l : Linkage) : List Registration → List (Except Breach Bool)
  | [] => []
  | r :: rs => l.answer r :: (l.attempt r).answers rs

/-- The linkage with a registration, whether or not it should be accepted. -/
def put (l : Linkage) : Registration → Linkage
  | .request s => { l with requests := (l.requests.request s).2 }
  | .regularImport i => ({ l with regularImports := l.regularImports.push i }).redirectExports i
  | .namespaceImport i => { l with namespaceImports := l.namespaceImports.push i }
  | .localExport e =>
    match l.regularImports.first? e.localName with
    | some i => { l with indirectExports := l.indirectExports.push (e.redirect i) }
    | none => { l with localExports := l.localExports.insert e }
  | .indirectExport e => { l with indirectExports := l.indirectExports.push e }
  | .starExport e => { l with starExports := l.starExports.push e }

theorem put_requests (l : Linkage) (r : Registration) :
    (l.put r).requests = r.specifier?.elim l.requests fun s => (l.requests.request s).2 := by
  cases r with
  | localExport e =>
    simp only [put]
    split <;> rfl
  | request | regularImport | namespaceImport | indirectExport | starExport => rfl

theorem put_regularImports (l : Linkage) (r : Registration) :
    (l.put r).regularImports = r.regularImport?.elim l.regularImports l.regularImports.push := by
  cases r with
  | localExport e =>
    simp only [put]
    split <;> rfl
  | request | regularImport | namespaceImport | indirectExport | starExport => rfl

theorem put_namespaceImports (l : Linkage) (r : Registration) :
    (l.put r).namespaceImports = r.namespaceImport?.elim l.namespaceImports l.namespaceImports.push := by
  cases r with
  | localExport e =>
    simp only [put]
    split <;> rfl
  | request | regularImport | namespaceImport | indirectExport | starExport => rfl

theorem put_starExports (l : Linkage) (r : Registration) :
    (l.put r).starExports = r.starExport?.elim l.starExports l.starExports.push := by
  cases r with
  | localExport e =>
    simp only [put]
    split <;> rfl
  | request | regularImport | namespaceImport | indirectExport | starExport => rfl

/-- A linkage whose regular imports are well-formed. -/
def Sound (l : Linkage) : Prop :=
  ∀ i ∈ l.regularImports.toList, (Registration.regularImport i).wellFormed l.requests.size = true

/-- All that can come of a registration. -/
inductive Outcome (l : Linkage) (r : Registration) : Except Refusal Linkage → Prop
  | accepted : r.wellFormed l.requests.size = true → (∀ name, r.exportName? = some name → l.isFree name = true) →
      Outcome l r (.ok (l.put r))
  | duplicate {name} : r.wellFormed l.requests.size = true → r.exportName? = some name → l.isFree name = false →
      Outcome l r (.error (.duplicateExport ⟨name⟩))
  | breach {cause} : (l.Sound → r.wellFormed l.requests.size = false) → Outcome l r (.error (.breach cause))

theorem mem_of_first? {t : ImportTable} {name : String} {i : Import} (h : t.first? name = some i) : i ∈ t.toList := by
  have hmem : i ∈ t.importsOf name := List.mem_of_mem_head? h
  obtain ⟨p, -, hp⟩ := List.mem_filterMap.mp hmem
  exact Array.mem_toList_iff.mpr (Array.mem_of_getElem? hp)

/-! ## One check after another -/

section Checks

variable {l : Linkage} {r : Registration} {x : Except Refusal Linkage}

/-- A check that only malformed registrations fail. -/
theorem Outcome.require {condition : Bool} {otherwise : Breach}
    (hfail : condition = false → l.Sound → r.wellFormed l.requests.size = false)
    (hpass : condition = true → Outcome l r x) : Outcome l r (require condition otherwise >>= fun _ => x) := by
  cases hc : condition with
  | true => exact hpass hc
  | false => exact .breach (hfail hc)

/-- The check of the export name, which comes last. -/
theorem Outcome.requireFree {name : String} (hr : r.wellFormed l.requests.size = true) (hname : r.exportName? = some name)
    (hx : x = .ok (l.put r)) : Outcome l r (l.requireFree name >>= fun _ => x) := by
  unfold Linkage.requireFree
  split
  next hfree =>
    rw [hx]
    refine .accepted hr fun name' hname' => ?_
    rw [hname] at hname'
    exact Option.some.inj hname' ▸ hfree
  next htaken => exact .duplicate hr hname (Bool.eq_false_iff.mpr htaken)

end Checks

theorem request_outcome (l : Linkage) (s : String) : Outcome l (.request s) ((l.request s).map (·.2)) := by
  unfold Linkage.request
  cases hs : s.isEmpty with
  | true => exact .breach fun _ => by simp [Registration.wellFormed, hs]
  | false => exact .accepted (by simp [Registration.wellFormed, hs]) (by simp [Registration.exportName?])

theorem addImport_outcome (l : Linkage) (i : Import) : Outcome l (.regularImport i) (l.addImport i) := by
  unfold addImport
  refine .require (fun h _ => by simp_all [Registration.wellFormed]) fun himport => ?_
  refine .require (fun h _ => by simp_all [Registration.wellFormed]) fun hlocal => ?_
  refine .require (fun h _ => by simp_all [Registration.wellFormed]) fun hrequest => ?_
  exact .accepted (by simp_all [Registration.wellFormed]) (by simp [Registration.exportName?])

theorem addNamespaceImport_outcome (l : Linkage) (i : Import) :
    Outcome l (.namespaceImport i) (l.addNamespaceImport i) := by
  unfold addNamespaceImport
  refine .require (fun h _ => by simp_all [Registration.wellFormed]) fun himport => ?_
  refine .require (fun h _ => by simp_all [Registration.wellFormed]) fun hlocal => ?_
  refine .require (fun h _ => by simp_all [Registration.wellFormed]) fun hrequest => ?_
  exact .accepted (by simp_all [Registration.wellFormed]) (by simp [Registration.exportName?])

theorem addIndirectExport_outcome (l : Linkage) (e : IndirectExport) :
    Outcome l (.indirectExport e) (l.addIndirectExport e) := by
  unfold addIndirectExport
  refine .require (fun h _ => by simp_all [Registration.wellFormed]) fun himport => ?_
  refine .require (fun h _ => by simp_all [Registration.wellFormed]) fun hexport => ?_
  refine .require (fun h _ => by simp_all [Registration.wellFormed]) fun hrequest => ?_
  exact .requireFree (by simp_all [Registration.wellFormed]) rfl rfl

theorem addLocalExport_outcome (l : Linkage) (e : LocalExport) : Outcome l (.localExport e) (l.addLocalExport e) := by
  unfold addLocalExport
  refine .require (fun h _ => by simp_all [Registration.wellFormed]) fun hlocal => ?_
  refine .require (fun h _ => by simp_all [Registration.wellFormed]) fun hexport => ?_
  have hwell : (Registration.localExport e).wellFormed l.requests.size = true := by simp_all [Registration.wellFormed]
  split
  next i hfirst =>
    -- A well-formed import passes the checks of the indirect export that it makes.
    unfold addIndirectExport
    have hsound : l.Sound → (Registration.regularImport i).wellFormed l.requests.size = true := fun h =>
      h i (mem_of_first? hfirst)
    simp only [Registration.wellFormed, Bool.and_eq_true] at hsound
    refine .require (fun h hl => ?_) fun _ => ?_
    · exact absurd (hsound hl).1.1 (ne_true_of_eq_false h)
    refine .require (fun h _ => ?_) fun _ => ?_
    · exact absurd hexport (ne_true_of_eq_false h)
    refine .require (fun h hl => ?_) fun _ => ?_
    · exact absurd (hsound hl).2 (ne_true_of_eq_false h)
    exact .requireFree hwell rfl (by simp only [put, hfirst]; rfl)
  next hfirst => exact .requireFree hwell rfl (by simp only [put, hfirst]; rfl)

theorem addStarExport_outcome (l : Linkage) (e : StarExport) : Outcome l (.starExport e) (l.addStarExport e) := by
  unfold addStarExport
  refine .require (fun h _ => by simp_all [Registration.wellFormed]) fun hrequest => ?_
  exact .accepted (by simp_all [Registration.wellFormed]) (by simp [Registration.exportName?])

/-- **A registration** is accepted where it is well-formed and its export name is free. -/
theorem register_outcome (l : Linkage) (r : Registration) : Outcome l r (l.register r) := by
  cases r with
  | request s => exact request_outcome l s
  | regularImport i => exact addImport_outcome l i
  | namespaceImport i => exact addNamespaceImport_outcome l i
  | localExport e => exact addLocalExport_outcome l e
  | indirectExport e => exact addIndirectExport_outcome l e
  | starExport e => exact addStarExport_outcome l e

/-! ## Answers -/

variable {l : Linkage} {r : Registration}

theorem attempt_of_accepted (h : l.answer r = .ok true) : l.attempt r = l.put r := by
  have hout := register_outcome l r
  unfold answer at h
  unfold attempt
  cases hr : l.register r with
  | ok l' =>
    rw [hr] at hout
    cases hout
    rfl
  | error cause =>
    rw [hr] at h
    cases cause <;> cases h

/-- A registration that is not accepted has no effect. -/
theorem attempt_of_not_accepted (h : l.answer r ≠ .ok true) : l.attempt r = l := by
  unfold answer at h
  unfold attempt
  cases hr : l.register r with
  | ok l' => exact absurd (by rw [hr]) h
  | error cause => rfl

theorem answer_of_wellFormed (hl : l.Sound) (hr : r.wellFormed l.requests.size = true) :
    l.answer r = .ok (r.exportName?.all l.isFree) := by
  have hout := register_outcome l r
  unfold answer
  cases hout' : l.register r with
  | ok l' =>
    rw [hout'] at hout
    cases hout with
    | accepted _ hfree => cases hname : r.exportName? <;> simp_all
  | error cause =>
    rw [hout'] at hout
    cases hout with
    | duplicate _ hname htaken => simp [hname, htaken]
    | breach h => rw [h hl] at hr; cases hr

theorem wellFormed_of_answer {a : Bool} (h : l.answer r = .ok a) : r.wellFormed l.requests.size = true := by
  have hout := register_outcome l r
  unfold answer at h
  cases hout' : l.register r with
  | ok l' =>
    rw [hout'] at hout
    cases hout with
    | accepted hr _ => exact hr
  | error cause =>
    rw [hout'] at hout h
    cases hout with
    | duplicate hr _ _ => exact hr
    | breach _ => cases h

/-! ## Invariants -/

section

variable {I : Linkage → Prop} {l : Linkage}

/-- What every accepted registration keeps, an attempt keeps. -/
theorem attempt_invariant (keep : ∀ {l r}, Registration.wellFormed l.requests.size r = true → I l → I (l.put r))
    (r : Registration) (h : I l) : I (l.attempt r) := by
  by_cases ha : l.answer r = .ok true
  · rw [attempt_of_accepted ha]
    exact keep (wellFormed_of_answer ha) h
  · rw [attempt_of_not_accepted ha]
    exact h

/-- And so does a run. -/
theorem run_invariant (keep : ∀ {l r}, Registration.wellFormed l.requests.size r = true → I l → I (l.put r))
    (rs : List Registration) (h : I l) : I (l.run rs) := by
  induction rs generalizing l with
  | nil => exact h
  | cons r rs ih => exact ih (attempt_invariant keep r h)

end

end ScriptAssembly.Linkage
