import ScriptAssembly.Linkage.InPlace
import ScriptAssembly.Proofs.ExportNames
import ScriptAssembly.Proofs.Reordering
/-
Calls in place change everything or nothing.

Carried out in place, a call amounts to what `register` decides (`Settles`):
all its changes where the registration is accepted, none where it is not. For
single calls this takes two facts about the indexes of a linkage
(`Indexed`): they lead to imports that are there, and the listed names of local
exports are those of the groups. Both hold of everything that registrations
lead to, and so, call after call, of everything that calls in place lead to.
What `register` refuses as malformed is then what is malformed by itself
(`Registration.Invalid`); in particular the checks of an indirect export never
fail for a local export that becomes one.

With this, what is known of export names holds of calls in place: those that
export a name succeed just if it was free, by whichever call and to whichever
table the export comes (`Call.namesOnce_afterAll`).
-/
namespace ScriptAssembly.Linkage

/-! ## Invalid arguments -/

/-- Arguments that no call may have after so many module requests. -/
def Registration.Invalid (requests : Nat) : Registration → Prop
  | request specifier => specifier = ""
  | regularImport i => i.importName = "" ∨ i.localName = "" ∨ requests ≤ i.request
  | namespaceImport i => i.importName ≠ "" ∨ i.localName = "" ∨ requests ≤ i.request
  | localExport e => e.localName = "" ∨ e.exportName = ""
  | indirectExport e => e.importName = "" ∨ e.exportName = "" ∨ requests ≤ e.request
  | starExport e => requests ≤ e.request

theorem Registration.invalid_iff {r : Registration} {requests : Nat} :
    r.Invalid requests ↔ r.wellFormed requests = false := by
  cases r <;> simp [Invalid, wellFormed, Classical.or_iff_not_imp_left]

/-! ## Single checks -/

/-- What comes of a call where a registration of the given outcome is decided first. -/
def settled {α : Type} (l : Linkage) (reply : Bool → α) : Except Refusal Linkage → EStateM.Result Abort Linkage α
  | .ok l' => .ok (reply true) l'
  | .error (.duplicateExport _) => .ok (reply false) l
  | .error (.breach b) => .error (.breach b) l

/-- A computation in place that amounts to a registration. -/
def Settles {α : Type} (l : Linkage) (reply : Bool → α) (p : InPlace α) (x : Except Refusal Linkage) : Prop :=
  p.run l = settled l reply x

theorem run_get_bind {α : Type} (l : Linkage) (f : Linkage → InPlace α) : (get >>= f).run l = (f l).run l := rfl

namespace Settles

variable {α β : Type} {l : Linkage} {reply : Bool → α} {p : InPlace α} {x : Except Refusal Linkage}

/-- Both begin with the same check. -/
theorem require {condition : Bool} {otherwise : Breach} (h : Settles l reply p x) :
    Settles l reply (InPlace.require condition otherwise >>= fun _ => p)
      (Linkage.require condition otherwise >>= fun _ => x) := by
  cases condition with
  | true => exact h
  | false => rfl

theorem requireRequest {index : Nat} (h : Settles l reply p x) :
    Settles l reply (InPlace.requireRequest index >>= fun _ => p) (l.requireRequest index >>= fun _ => x) := by
  have hcheck : Settles l reply
      (InPlace.require (decide (index < l.requests.size)) (.unknownRequest index) >>= fun _ => p)
      (Linkage.require (decide (index < l.requests.size)) (.unknownRequest index) >>= fun _ => x) := require h
  exact hcheck

/-- A change that comes to its end. -/
theorem ok {a : α} {l' : Linkage} (hp : p.run l = .ok a l') (ha : reply true = a) : Settles l reply p (.ok l') := by
  rw [Settles, settled, ha, hp]

/-- The last check, and the change behind it. -/
theorem ifFree {exportName : String} {change : InPlace Unit} {l' : Linkage} (hchange : change.run l = .ok () l') :
    Settles l id (InPlace.ifFree exportName change) (l.requireFree exportName >>= fun _ => .ok l') := by
  unfold Settles InPlace.ifFree Linkage.requireFree
  rw [run_get_bind]
  cases l.isFree exportName with
  | true =>
    simp only [if_true, EStateM.run_bind, hchange]
    rfl
  | false => rfl

/-- The reply of a call is made of that of a part. -/
theorem map (h : Settles l reply p x) (f : α → β) :
    Settles l (fun accepted => f (reply accepted)) (p >>= fun a => pure (f a)) x := by
  rw [Settles, EStateM.run_bind, h]
  rcases x with (_ | _) | _ <;> rfl

end Settles

/-! ## Indexes -/

/-- A linkage whose indexes lead nowhere else than to entries. -/
structure Indexed (l : Linkage) : Prop where
  positions : ∀ name, ∀ p ∈ (l.regularImports.positionsOf name).toList, p < l.regularImports.size
  names : ∀ name ∈ l.localExports.order.toList, name ∈ l.localExports.groups

theorem Reads.indexed {l : Linkage} {h : History} {steps : Nat} (hl : l.Reads h steps) : l.Indexed where
  positions := hl.regularImports.bounded
  names name hname := by
    rw [hl.localExports.order, List.mem_eraseDups] at hname
    exact (hl.localExports.index name).mpr hname

/-- There is nothing to remove of a name that has no group. -/
theorem LocalExportTable.removeGroup_eq_self {t : LocalExportTable} (hnames : ∀ name ∈ t.order.toList, name ∈ t.groups)
    {name : String} (hname : t.groups[name]? = none) : t.removeGroup name = t := by
  have hnot : name ∉ t.groups := by
    rw [Std.ExtTreeMap.mem_iff_isSome_getElem?, hname]
    simp
  have horder : t.order.filter (· != name) = t.order := by
    refine Array.filter_eq_self.mpr fun other hother => ?_
    rw [bne_iff_ne]
    exact fun heq => hnot (heq ▸ hnames other (Array.mem_toList_iff.mpr hother))
  have hgroups : t.groups.erase name = t.groups := by
    refine Std.ExtTreeMap.ext_getElem? fun other => ?_
    rw [Std.ExtTreeMap.getElem?_erase]
    split
    next heq => rw [← Std.LawfulEqCmp.eq_of_compare heq, hname]
    next => rfl
  rw [LocalExportTable.removeGroup, horder, hgroups]

/-! ## Changes -/

namespace InPlace

variable {l : Linkage}

/-- Exports that are redirected one after another. -/
theorem run_pushRedirected (l : Linkage) (i : Import) (es : List LocalExport) :
    (es.forM fun e => pushIndirectExport (e.redirect i)).run l =
      .ok () { l with indirectExports := l.indirectExports ++ (es.map (·.redirect i)).toArray } := by
  induction es generalizing l with
  | nil => simp only [List.map_nil, Array.append_empty]; rfl
  | cons e es ih =>
    have hpush : (pushIndirectExport (e.redirect i)).run l =
        .ok () { l with indirectExports := l.indirectExports.push (e.redirect i) } := rfl
    rw [List.forM_eq_forM, List.forM_cons, EStateM.run_bind, hpush]
    rw [List.forM_eq_forM] at ih
    simp only [ih, List.map_cons]
    congr 2
    simp

theorem run_redirectExports (hnames : ∀ name ∈ l.localExports.order.toList, name ∈ l.localExports.groups) (i : Import) :
    (redirectExports i).run l = .ok () (l.redirectExports i) := by
  unfold redirectExports
  rw [run_get_bind]
  cases hgroup : l.localExports.groups[i.localName]? with
  | none =>
    have hempty : l.localExports.group i.localName = [] := by
      rw [LocalExportTable.group, hgroup]
      rfl
    simp only [Linkage.redirectExports, LocalExportTable.removeGroup_eq_self hnames hgroup, hempty, List.map_nil,
      Array.append_empty]
    rfl
  | some es =>
    have hes : l.localExports.group i.localName = es.toList := by
      rw [LocalExportTable.group, hgroup]
      rfl
    simp only [Linkage.redirectExports, hes]
    exact run_pushRedirected { l with localExports := l.localExports.removeGroup i.localName } i es.toList

/-- The first position of the index is that of the first import. -/
theorem run_firstImport? (hl : l.Indexed) (localName : String) :
    (firstImport? localName).run l = .ok (l.regularImports.first? localName) l := by
  unfold firstImport? ImportTable.first? ImportTable.importsOf
  rw [run_get_bind]
  cases hpositions : (l.regularImports.positionsOf localName).toList with
  | nil => rfl
  | cons position positions =>
    have hlt : position < l.regularImports.entries.size := hl.positions localName position (by simp [hpositions])
    have hget : l.regularImports.entries[position]? = some l.regularImports.entries[position] :=
      Array.getElem?_eq_getElem hlt
    simp only [hget, List.filterMap_cons]
    rfl

theorem run_insertLocalExport (l : Linkage) (e : LocalExport) :
    (insertLocalExport e).run l = .ok () { l with localExports := l.localExports.insert e } := by
  unfold insertLocalExport LocalExportTable.insert
  rw [run_get_bind]
  cases l.localExports.groups[e.localName]? <;> rfl

/-! ## Calls -/

theorem register_request (l : Linkage) (specifier : String) :
    l.register (.request specifier) = (Linkage.require (!specifier.isEmpty) .emptySpecifier >>= fun _ =>
      .ok { l with requests := (l.requests.request specifier).2 }) := by
  show (l.request specifier).map (·.2) = _
  unfold Linkage.request
  cases specifier.isEmpty <;> rfl

theorem request_settles (l : Linkage) (specifier : String) :
    Settles l (fun _ => (l.requests.request specifier).1) (request specifier) (l.register (.request specifier)) := by
  rw [register_request]
  unfold request
  refine .require ?_
  unfold Settles RequestTable.request
  rw [run_get_bind]
  cases l.requests.indices[specifier]? <;> rfl

theorem addImport_settles (hl : l.Indexed) (i : Import) : Settles l (fun _ => ()) (addImport i) (l.addImport i) := by
  unfold addImport Linkage.addImport
  refine .require (.require (.requireRequest (.ok ?_ rfl)))
  exact run_redirectExports (l := { l with regularImports := l.regularImports.push i }) hl.names i

theorem addNamespaceImport_settles (l : Linkage) (i : Import) :
    Settles l (fun _ => ()) (addNamespaceImport i) (l.addNamespaceImport i) := by
  unfold addNamespaceImport Linkage.addNamespaceImport
  exact .require (.require (.requireRequest (.ok rfl rfl)))

theorem addIndirectExport_settles (l : Linkage) (e : IndirectExport) :
    Settles l id (addIndirectExport e) (l.addIndirectExport e) := by
  unfold addIndirectExport Linkage.addIndirectExport
  exact .require (.require (.requireRequest (.ifFree rfl)))

theorem addLocalExport_settles (hl : l.Indexed) (e : LocalExport) :
    Settles l id (addLocalExport e) (l.addLocalExport e) := by
  unfold addLocalExport Linkage.addLocalExport
  refine .require (.require ?_)
  unfold Settles
  rw [EStateM.run_bind, run_firstImport? hl]
  cases l.regularImports.first? e.localName with
  | some i => exact addIndirectExport_settles l (e.redirect i)
  | none => exact Settles.ifFree (run_insertLocalExport l e)

theorem addStarExport_settles (l : Linkage) (e : StarExport) :
    Settles l (fun _ => ()) (addStarExport e) (l.addStarExport e) := by
  unfold addStarExport Linkage.addStarExport
  exact .requireRequest (.ok rfl rfl)

theorem addExport_settles (hl : l.Indexed) (e : Export) : Settles l id (addExport e) (l.addExport e) := by
  cases e with
  | localExport e => exact addLocalExport_settles hl e
  | indirectExport e => exact addIndirectExport_settles l e
  | starExport e =>
    show Settles l id ((requireRequest e.request >>= fun _ => pushStarExport e) >>= fun _ => pure true)
      (l.addStarExport e)
    rw [bind_assoc]
    exact .requireRequest (.ok rfl rfl)

end InPlace

/-! ## Calls as data -/

namespace Call

/-- The registration that a call is for. -/
def registration : Call → Registration
  | request specifier => .request specifier
  | addImport i => .regularImport i
  | addNamespaceImport i => .namespaceImport i
  | addLocalExport e | tryAddLocalExport e => .localExport e
  | addIndirectExport e | tryAddIndirectExport e => .indirectExport e
  | addStarExport e => .starExport e
  | addExport e => e.registration

/-- What a call gives back for a registration that was accepted, or refused for its export name. -/
def reply (l : Linkage) (accepted : Bool) : Call → Reply
  | request specifier => .index (l.requests.request specifier).1
  | addImport _ | addNamespaceImport _ | addStarExport _ => .done
  | addLocalExport _ | addIndirectExport _ | addExport _ => .accepted accepted
  | tryAddLocalExport e => .outcome (InPlace.orDuplicate e.exportName accepted)
  | tryAddIndirectExport e => .outcome (InPlace.orDuplicate e.exportName accepted)

variable {l : Linkage}

/-- A call in place amounts to its registration. -/
theorem perform_settles (hl : l.Indexed) (c : Call) :
    Settles l (fun accepted => c.reply l accepted) c.perform (l.register c.registration) := by
  cases c with
  | request specifier => exact (InPlace.request_settles l specifier).map _
  | addImport i => exact (InPlace.addImport_settles hl i).map fun _ => Reply.done
  | addNamespaceImport i => exact (InPlace.addNamespaceImport_settles l i).map fun _ => Reply.done
  | addLocalExport e => exact (InPlace.addLocalExport_settles hl e).map _
  | addIndirectExport e => exact (InPlace.addIndirectExport_settles l e).map _
  | addStarExport e => exact (InPlace.addStarExport_settles l e).map fun _ => Reply.done
  | addExport e =>
    have hexport := (InPlace.addExport_settles hl e).map Reply.accepted
    rw [addExport_eq_register] at hexport
    exact hexport
  | tryAddLocalExport e =>
    exact ((InPlace.addLocalExport_settles hl e).map (InPlace.orDuplicate e.exportName)).map Reply.outcome
  | tryAddIndirectExport e =>
    exact ((InPlace.addIndirectExport_settles l e).map (InPlace.orDuplicate e.exportName)).map Reply.outcome

theorem after_eq_attempt (hl : l.Indexed) (c : Call) : after l c = l.attempt c.registration := by
  have hrun := perform_settles hl c
  unfold after attempt
  rw [hrun]
  rcases l.register c.registration with (_ | _) | _ <;> rfl

/-- Calls in a row amount to their registrations in a row. -/
theorem afterAll_eq_run (calls : List Call) : afterAll .empty calls = Linkage.empty.run (calls.map registration) := by
  induction calls using List.reverseRecOn with
  | nil => rfl
  | append_singleton calls c ih =>
    have hindexed := (Reads.empty.run (calls.map registration)).indexed
    have hafter : afterAll .empty (calls ++ [c]) = after (afterAll .empty calls) c := List.foldl_concat ..
    have hattempt : Linkage.empty.run (calls.map registration ++ [c.registration]) =
        (Linkage.empty.run (calls.map registration)).attempt c.registration := List.foldl_concat ..
    rw [hafter, ih, after_eq_attempt hindexed, List.map_append, List.map_singleton, hattempt]

/-- All that can come of a call in place. -/
inductive Ending (l : Linkage) (c : Call) : EStateM.Result Abort Linkage Reply → Prop
  | accepted {reply l'} : ¬ c.registration.Invalid l.requests.size → reply.isRefusal = false →
      l.register c.registration = .ok l' → Ending l c (.ok reply l')
  | refused {reply} : ¬ c.registration.Invalid l.requests.size → reply.isRefusal = true → Ending l c (.ok reply l)
  | aborted {cause} : c.registration.Invalid l.requests.size → Ending l c (.error (.breach cause) l)

theorem isRefusal_reply_true (l : Linkage) (c : Call) : (c.reply l true).isRefusal = false := by
  cases c <;> rfl

/-- Only calls that tell so are refused for an export name. -/
theorem isRefusal_reply_false (l : Linkage) {c : Call} {name : String} (h : c.registration.exportName? = some name) :
    (c.reply l false).isRefusal = true := by
  cases c <;> first | rfl | cases h

theorem perform_ending (hl : l.Indexed) (hsound : l.Sound) (c : Call) : Ending l c (c.perform.run l) := by
  have hrun : c.perform.run l = settled l (fun accepted => c.reply l accepted) (l.register c.registration) :=
    perform_settles hl c
  have hout := register_outcome l c.registration
  have hvalid : c.registration.wellFormed l.requests.size = true → ¬ c.registration.Invalid l.requests.size := by
    intro hwell
    simp [Registration.invalid_iff, hwell]
  rw [hrun]
  cases hregister : l.register c.registration with
  | ok l' =>
    rw [hregister] at hout
    cases hout with
    | accepted hwell _ => exact .accepted (hvalid hwell) (isRefusal_reply_true l c) hregister
  | error refusal =>
    rw [hregister] at hout
    cases hout with
    | duplicate hwell hname _ => exact .refused (hvalid hwell) (isRefusal_reply_false l hname)
    | breach hcause => exact .aborted (Registration.invalid_iff.mpr (hcause hsound))

/-- A call that changes a linkage as a whole or not at all. -/
structure Atomic (l : Linkage) (c : Call) : Prop where
  aborts : (∃ abort l', c.perform.run l = .error abort l') ↔ c.registration.Invalid l.requests.size
  aborted : ∀ abort l', c.perform.run l = .error abort l' → l' = l ∧ ∃ cause, abort = .breach cause
  refused : ∀ reply l', c.perform.run l = .ok reply l' → reply.isRefusal = true → l' = l
  accepted : ∀ reply l', c.perform.run l = .ok reply l' → reply.isRefusal = false → l.register c.registration = .ok l'

theorem Ending.atomic {c : Call} (h : Ending l c (c.perform.run l)) : Atomic l c where
  aborts := by
    generalize c.perform.run l = result at h
    cases h with
    | accepted hvalid _ _ | refused hvalid _ => simp [hvalid]
    | aborted hinvalid => simp [hinvalid]
  aborted abort l' hrun := by
    rw [hrun] at h
    cases h with
    | @aborted cause _ => exact ⟨rfl, cause, rfl⟩
  refused reply l' hrun hrefusal := by
    rw [hrun] at h
    cases h with
    | accepted _ haccepted _ => rw [haccepted] at hrefusal; cases hrefusal
    | refused _ _ => rfl
  accepted reply l' hrun haccepted := by
    rw [hrun] at h
    cases h with
    | accepted _ _ hregister => exact hregister
    | refused _ hrefusal => rw [haccepted] at hrefusal; cases hrefusal

/-- **Every call in place is atomic**, and aborted for its own arguments alone. -/
theorem atomic_afterAll (calls : List Call) (c : Call) :
    afterAll .empty calls = Linkage.empty.run (calls.map registration) ∧ Atomic (afterAll .empty calls) c := by
  refine ⟨afterAll_eq_run calls, ?_⟩
  rw [afterAll_eq_run]
  have hindexed := (Reads.empty.run (calls.map registration)).indexed
  exact (perform_ending hindexed (Settled.run (calls.map registration)).sound c).atomic

/-! ## Calls under an export name -/

theorem isRefusal_of_perform (hl : l.Indexed) {c : Call} {name : String} (hname : c.registration.exportName? = some name)
    {reply : Reply} {l' : Linkage} (hrun : c.perform.run l = .ok reply l') : reply.isRefusal = !l.isFree name := by
  have hsettled : c.perform.run l = settled l (fun accepted => c.reply l accepted) (l.register c.registration) :=
    perform_settles hl c
  rw [hrun] at hsettled
  rcases register_decided l hname with ⟨cause, hbreach⟩ | hdecided
  · rw [hbreach] at hsettled
    cases hsettled
  · rw [hdecided] at hsettled
    cases hfree : l.isFree name with
    | true =>
      rw [if_pos hfree] at hsettled
      cases hsettled
      exact isRefusal_reply_true l c
    | false =>
      rw [hfree] at hsettled
      cases hsettled
      exact isRefusal_reply_false l hname

end Call

/-- A linkage in which an export name can be used once. -/
structure NamesOnce (l : Linkage) : Prop where
  distinct : (l.exports.filterMap Export.exportName?).Nodup
  taken : ∀ name, l.isFree name = false ↔ ∃ x ∈ l.exports, x.exportName? = some name
  answer : ∀ (r : Registration) name accepted, r.exportName? = some name → l.answer r = .ok accepted →
    accepted = l.isFree name
  addExport : ∀ (x : Export) name, x.exportName? = some name → l.Decided x.registration name (l.addExport x)
  /-- Each of the calls that export a name, those that give an error for a taken one included, succeeds just if it was
  free. -/
  call : ∀ (c : Call) name reply l', c.registration.exportName? = some name → c.perform.run l = .ok reply l' →
    (reply.isRefusal = false ↔ l.isFree name = true)

/-- **An export name is used once,** and once it is used no call frees it. -/
theorem Call.namesOnce_afterAll (calls : List Call) :
    (afterAll .empty calls).NamesOnce ∧ ∀ name more, (afterAll .empty calls).isFree name = false →
      (afterAll .empty (calls ++ more)).isFree name = false := by
  simp only [afterAll_eq_run, List.map_append]
  have hreads := Reads.empty.run (calls.map registration)
  refine ⟨⟨?_, hreads.isFree_eq_false_iff, fun r name accepted => answer_export, fun x name hname => ?_,
    fun c name reply l' hname hrun => ?_⟩, fun name more htaken => ?_⟩
  · rw [hreads.exportNames_perm.nodup_iff]
    exact Reads.empty.nodup_exportNames .nil _
  · rw [addExport_eq_register]
    exact register_decided _ (x.exportName?_registration.trans hname)
  · rw [isRefusal_of_perform hreads.indexed hname hrun, Bool.not_eq_false']
  · rw [run, List.foldl_append]
    exact hreads.isFree_run htaken _

/-- The name `a` is taken while its export is the module's own, and when an import has redirected it. -/
example : (Call.afterAll .empty [.request "m", .addLocalExport ⟨"a", "x"⟩, .addImport ⟨0, "p", "x"⟩,
    .tryAddLocalExport ⟨"a", "y"⟩, .addExport (.localExport ⟨"b", "x"⟩)]).exports =
      [.indirectExport ⟨"a", "p", 0⟩, .indirectExport ⟨"b", "p", 0⟩] := by decide +kernel

end ScriptAssembly.Linkage
