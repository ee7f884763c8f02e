import ScriptAssembly.Proofs.Calls
import ScriptAssembly.Proofs.Interleaving
/-
A build has a program exactly where there should be one.

At any time every draft of a build is in one of three places: it was added to
the builder, a worker stopped at it, or it is still pending (`Accounts`). The
builder holds the functions of the drafts that were added and no others, so
these have different names; and a worker stops for a cause that lies in the
drafts. At the end of a build that is to have a program no worker has
stopped, so every draft was added. Which workers there were and who moved
when plays no part.
-/
namespace ScriptAssembly

/-- A program with the function of each draft, and no others. -/
structure Program.OneForEach (p : Program) (debug : Bool) (drafts : List Draft) : Prop where
  count : p.functionCount = drafts.length
  function : ∀ d ∈ drafts, ∃ e, d.emit debug = .ok e ∧ p.function? d.name = some e.function
  draft : ∀ name f, p.function? name = some f →
    ∃ d ∈ drafts, d.name = name ∧ (d.emit debug).map Emission.function = .ok f

namespace Build

variable {o : Options} {linkage : Option Linkage} {drafts : List Draft} {parallelism : Nat} {schedule : List Turn}

/-- A unit that can be built: its drafts are emitted, no two have one name, and its linkage fits its array. -/
structure Buildable (o : Options) (linkage : Option Linkage) (drafts : List Draft) : Prop where
  emits : ∀ d ∈ drafts, ∃ e, d.emit o.debug = .ok e
  names : (drafts.map Draft.name).Nodup
  linkage : ∀ l, linkage = some l → ∃ literals, l.literals = .ok literals

/-- The cause that a worker stopped for is there in the drafts. -/
def Stop.Explained (o : Options) (drafts : List Draft) : Stop → Prop
  | .error e => ∃ d ∈ drafts, d.emit o.debug = .error e
  | .breach b => ∃ name, b = .functionTwice name ∧ 1 < (drafts.map Draft.name).count name

/-- The cause of a failure is there in what was to be built. -/
def Failure.Explained (o : Options) (linkage : Option Linkage) (drafts : List Draft) : Failure → Prop
  | .breach (.linkage b) => ∃ l, linkage = some l ∧ l.literals = .error b
  | .breach (.builder b) => (Stop.breach b).Explained o drafts
  | .error (.emission e) => (Stop.error e).Explained o drafts
  | .error (.linkage _) => False

/-! ## Where the drafts are -/

namespace State

/-- The drafts that were added, with their emissions, those at which a worker stopped, and those that are pending
are all there are. -/
structure Accounts (o : Options) (drafts : List Draft) (added : List (Draft × Emission)) (dropped : List Draft)
    (s : State) : Prop where
  perm : (added.map Prod.fst ++ (dropped ++ s.workers.flatMap Worker.pending)).Perm drafts
  emitted : ∀ x ∈ added, x.1.emit o.debug = .ok x.2
  functions : Lists s.builder.program.functions (added.map fun x => (x.1.name, x.2.function))
  dropped : (∀ w ∈ s.workers, w.stop = none) → dropped = []
  stops : ∀ w ∈ s.workers, ∀ stop, w.stop = some stop → stop.Explained o drafts

namespace Accounts

variable {added : List (Draft × Emission)} {dropped ds : List Draft} {d : Draft} {before after : List Worker}
  {record : RecordStage} {b : Builder} {s : State}

theorem taken (h : Accounts o drafts added dropped ⟨before ++ ⟨d :: ds, none⟩ :: after, record, b⟩)
    (stop : Option Stop) : (added.map Prod.fst ++
      d :: (dropped ++ (before ++ Worker.mk ds stop :: after).flatMap Worker.pending)).Perm drafts := by
  have hpending : ((before ++ Worker.mk (d :: ds) none :: after).flatMap Worker.pending).Perm
      (d :: (before ++ Worker.mk ds stop :: after).flatMap Worker.pending) := by
    simp only [List.flatMap_append, List.flatMap_cons, List.cons_append]
    exact List.perm_middle
  have hmiddle := (hpending.append_left dropped).trans List.perm_middle
  exact ((hmiddle.append_left _).symm).trans h.perm

theorem drop (h : Accounts o drafts added dropped ⟨before ++ ⟨d :: ds, none⟩ :: after, record, b⟩) {stop : Stop}
    (hstop : stop.Explained o drafts) :
    Accounts o drafts added (d :: dropped) ⟨before ++ ⟨ds, some stop⟩ :: after, record, b⟩ where
  perm := h.taken (some stop)
  emitted := h.emitted
  functions := h.functions
  dropped hnone := by
    have hw := hnone ⟨ds, some stop⟩ (by simp)
    cases hw
  stops := by
    refine forall_mem_moved (P := fun w => ∀ stop, w.stop = some stop → stop.Explained o drafts) h.stops ?_
    intro stop' hstop'
    rwa [← Option.some.inj hstop']

/-- A draft whose name is that of one that was added comes twice. -/
theorem repeated (h : Accounts o drafts added dropped ⟨before ++ ⟨d :: ds, none⟩ :: after, record, b⟩)
    (hname : d.name ∈ b.program.functions) : 1 < (drafts.map Draft.name).count d.name := by
  have hadded : d.name ∈ (added.map Prod.fst).map Draft.name := by
    have hmem := h.functions.mem.mp hname
    rwa [List.map_map] at hmem ⊢
  have hcount := ((h.taken none).map Draft.name).count_eq d.name
  rw [List.map_append, List.count_append, List.map_cons, List.count_cons_self] at hcount
  have hpos := List.count_pos_iff.mpr hadded
  omega

theorem add (h : Accounts o drafts added dropped ⟨before ++ ⟨d :: ds, none⟩ :: after, record, b⟩) {e : Emission}
    (he : d.emit o.debug = .ok e) (hnew : e.function.name ∉ b.program.functions) :
    Accounts o drafts (added ++ [(d, e)]) dropped ⟨before ++ ⟨ds, none⟩ :: after, record, b.putFunction e⟩ where
  perm := by
    rw [List.map_append, List.append_assoc]
    exact h.taken none
  emitted x hx := by
    rcases List.mem_append.mp hx with hx | hx
    · exact h.emitted x hx
    · rw [List.mem_singleton.mp hx]
      exact he
  functions := by
    rw [List.map_append, List.map_singleton, ← Emission.name_of_emit he]
    exact h.functions.insert e.function (mt h.functions.mem.mpr hnew)
  dropped hnone := h.dropped (forall_mem_moved (P := fun w => w.stop = none) hnone rfl)
  stops := forall_mem_moved (P := fun w => ∀ stop, w.stop = some stop → stop.Explained o drafts) h.stops (by simp)

end Accounts

/-- A build in which every draft has its place, and so has the module record. -/
def Accounted (o : Options) (drafts : List Draft) (s : State) : Prop :=
  (∃ added dropped, Accounts o drafts added dropped s) ∧ s.RecordFits

/-- **Every move** leaves each draft its place, or gives it another. -/
theorem Moves.accounted {s s' : State} (h : Moves o s s') (hs : s.Accounted o drafts) : s'.Accounted o drafts := by
  obtain ⟨⟨added, dropped, hs⟩, hrecord⟩ := hs
  refine ⟨?_, h.recordFits hrecord⟩
  cases h with
  | idle => exact ⟨added, dropped, hs⟩
  | refuseRecord => exact ⟨added, dropped, hs.perm, hs.emitted, hs.functions, hs.dropped, hs.stops⟩
  | addRecord hb =>
    obtain ⟨-, rfl⟩ := Builder.addModuleRecord_eq_ok.mp hb
    exact ⟨added, dropped, hs.perm, hs.emitted, hs.functions, hs.dropped, hs.stops⟩
  | worker hw =>
    cases hw with
    | rest => exact ⟨added, dropped, hs⟩
    | @fail d _ _ _ he =>
      have hd := (hs.taken none).mem_iff.mp (List.mem_append_right _ List.mem_cons_self)
      exact ⟨added, _, hs.drop ⟨d, hd, he⟩⟩
    | refuse he hb =>
      obtain ⟨hname, rfl⟩ := Builder.addFunction_eq_error.mp hb
      rw [Emission.name_of_emit he] at hname ⊢
      exact ⟨added, _, hs.drop ⟨_, rfl, hs.repeated hname⟩⟩
    | add he hb =>
      obtain ⟨hnew, rfl⟩ := Builder.addFunction_eq_ok.mp hb
      exact ⟨_, dropped, hs.add he hnew⟩

end State

theorem begin_accounted (o : Options) (literals : Option (List Literal)) (drafts : List Draft) (parallelism : Nat) :
    (begin o literals drafts parallelism).Accounted o drafts := by
  have hpending : (begin o literals drafts parallelism).workers.flatMap Worker.pending = drafts := by
    rw [begin, List.flatMap_map]
    exact List.flatMap_id'.trans (chunks_flatten _ drafts)
  refine ⟨⟨[], [], ?_, by simp, .empty, fun _ => rfl, ?_⟩, recordFits_begin⟩
  · rw [hpending]
    exact .refl drafts
  · simp only [begin, List.mem_map]
    intro w hw stop hstop
    obtain ⟨c, -, rfl⟩ := hw
    cases hstop

theorem drained_accounted (o : Options) (literals : Option (List Literal)) (drafts : List Draft) (parallelism : Nat)
    (schedule : List Turn) :
    (((begin o literals drafts parallelism).run o schedule).drain o).Accounted o drafts := by
  obtain ⟨rest, hrest⟩ := State.drain_eq_run (o := o) ((begin o literals drafts parallelism).run o schedule)
  rw [← hrest, ← State.run_append]
  exact State.run_invariant State.Moves.accounted _ (begin_accounted o literals drafts parallelism)

/-! ## Outcomes -/

theorem State.outcome_eq_error {s : State} {failure : Failure} (h : s.outcome = .error failure) (hr : s.RecordFits)
    (hs : ∀ w ∈ s.workers, ∀ stop, w.stop = some stop → stop.Explained o drafts) :
    failure.Explained o linkage drafts := by
  unfold State.outcome at h
  split at h
  next b hb =>
    cases h
    rw [hr.breach?_eq] at hb
    obtain ⟨w, hw, hstop⟩ := List.exists_of_findSome?_eq_some hb
    exact hs w hw _ (Worker.breach?_eq_some.mp hstop)
  next e he =>
    cases h
    obtain ⟨w, hw, hstop⟩ := List.exists_of_findSome?_eq_some he
    exact hs w hw _ (Worker.error?_eq_some.mp hstop)
  · cases h

theorem State.outcome_eq_ok {s : State} {b : Builder} (h : s.outcome = .ok b) (hr : s.RecordFits) :
    s.builder = b ∧ ∀ w ∈ s.workers, w.stop = none := by
  unfold State.outcome at h
  split at h
  · cases h
  · cases h
  next hbreach herror =>
    cases h
    refine ⟨rfl, fun w hw => ?_⟩
    rw [hr.breach?_eq] at hbreach
    have hb := List.findSome?_eq_none_iff.mp hbreach w hw
    have he := List.findSome?_eq_none_iff.mp herror w hw
    cases hstop : w.stop with
    | none => rfl
    | some stop => cases stop <;> simp [Worker.breach?, Worker.error?, hstop] at hb he

/-- Where no worker stopped, every draft was added in the end. -/
theorem State.Accounts.of_finished {s : State} {added : List (Draft × Emission)} {dropped : List Draft}
    (h : s.Accounts o drafts added dropped) (hf : s.Finished) (hnone : ∀ w ∈ s.workers, w.stop = none) :
    (added.map Prod.fst).Perm drafts := by
  have hpending : s.workers.flatMap Worker.pending = [] := by
    rw [List.flatMap_eq_nil_iff]
    intro w hw
    exact (hf.workers w hw).resolve_left (by simp [hnone w hw])
  have hperm := h.perm
  rwa [h.dropped hnone, hpending, List.append_nil, List.append_nil] at hperm

theorem exists_linkageLiterals : (∃ literals, linkageLiterals linkage = .ok literals) ↔
    ∀ l, linkage = some l → ∃ literals, l.literals = .ok literals := by
  cases linkage with
  | none => simp [linkageLiterals]
  | some l => cases hl : l.literals <;> simp [linkageLiterals, hl]

theorem linkageLiterals_eq_error {failure : Failure} (h : linkageLiterals linkage = .error failure) :
    failure.Explained o linkage drafts := by
  cases linkage with
  | none => cases h
  | some l =>
    cases hl : l.literals with
    | ok literals => simp [linkageLiterals, hl] at h
    | error b =>
      simp only [linkageLiterals, hl, Except.error.injEq] at h
      exact h ▸ ⟨l, rfl, hl⟩

theorem scheduled_explained {failure : Failure} (h : scheduled o linkage drafts parallelism schedule = .error failure) :
    failure.Explained o linkage drafts := by
  unfold scheduled at h
  cases hl : linkageLiterals linkage with
  | error f =>
    rw [hl] at h
    cases h
    exact linkageLiterals_eq_error hl
  | ok literals =>
    obtain ⟨⟨added, dropped, haccounts⟩, hrecord⟩ := drained_accounted o literals drafts parallelism schedule
    rw [hl] at h
    simp only [bind, Except.bind] at h
    split at h
    next f hf =>
      cases h
      exact State.outcome_eq_error hf hrecord haccounts.stops
    · cases h

theorem added_of_scheduled {program : Program} (h : scheduled o linkage drafts parallelism schedule = .ok program) :
    ∃ added : List (Draft × Emission), (added.map Prod.fst).Perm drafts ∧
      (∀ x ∈ added, x.1.emit o.debug = .ok x.2) ∧
      Lists program.functions (added.map fun x => (x.1.name, x.2.function)) := by
  simp only [scheduled, bind_eq_ok, pure_eq_ok] at h
  obtain ⟨literals, -, b, hb, rfl⟩ := h
  obtain ⟨⟨added, dropped, haccounts⟩, hrecord⟩ := drained_accounted o literals drafts parallelism schedule
  obtain ⟨rfl, hnone⟩ := State.outcome_eq_ok hb hrecord
  refine ⟨added, haccounts.of_finished (State.drain_finished _) hnone, haccounts.emitted, ?_⟩
  rw [(Builder.finish_tables _).1]
  exact haccounts.functions

theorem buildable_of_scheduled {program : Program}
    (h : scheduled o linkage drafts parallelism schedule = .ok program) : Buildable o linkage drafts where
  emits d hd := by
    obtain ⟨added, hperm, hemitted, -⟩ := added_of_scheduled h
    obtain ⟨x, hx, rfl⟩ := List.mem_map.mp (hperm.mem_iff.mpr hd)
    exact ⟨x.2, hemitted x hx⟩
  names := by
    obtain ⟨added, hperm, -, hfunctions⟩ := added_of_scheduled h
    have hdistinct := hfunctions.distinct
    rw [List.map_map] at hdistinct
    rw [← (hperm.map Draft.name).nodup_iff, List.map_map]
    exact hdistinct
  linkage := by
    simp only [scheduled, bind_eq_ok] at h
    obtain ⟨literals, hl, -⟩ := h
    exact exists_linkageLiterals.mp ⟨literals, hl⟩

theorem oneForEach_of_scheduled {program : Program}
    (h : scheduled o linkage drafts parallelism schedule = .ok program) : program.OneForEach o.debug drafts := by
  obtain ⟨added, hperm, hemitted, hfunctions⟩ := added_of_scheduled h
  refine ⟨?_, fun d hd => ?_, fun name f hf => ?_⟩
  · rw [Program.functionCount, hfunctions.size, ← hperm.length_eq, List.length_map, List.length_map]
  · obtain ⟨x, hx, rfl⟩ := List.mem_map.mp (hperm.mem_iff.mpr hd)
    exact ⟨x.2, hemitted x hx, (hfunctions.getElem? _ _).mpr (List.mem_map_of_mem hx)⟩
  · obtain ⟨x, hx, heq⟩ := List.mem_map.mp ((hfunctions.getElem? name f).mp hf)
    cases heq
    refine ⟨x.1, hperm.mem_iff.mp (List.mem_map_of_mem hx), rfl, ?_⟩
    rw [hemitted x hx]
    rfl

theorem Buildable.scheduled (h : Buildable o linkage drafts) (parallelism : Nat) (schedule : List Turn) :
    ∃ program, Build.scheduled o linkage drafts parallelism schedule = .ok program := by
  obtain ⟨literals, hl⟩ := exists_linkageLiterals.mpr h.linkage
  have hfate : drafts.findSome? (Draft.error? o.debug) = none := by
    rw [List.findSome?_eq_none_iff]
    intro d hd
    obtain ⟨e, he⟩ := h.emits d hd
    simp only [Draft.error?, he]
  rw [scheduled_eq hl h.names, hfate]
  exact ⟨_, rfl⟩

/-- **A build accepts the units that can be built and no others,** whatever the dealing and the schedule are, and
leaves out no function. In particular a name that is used twice is a breach wherever all drafts are emitted, and
so is a linkage that does not fit, whether or not they are. -/
theorem scheduled_eq_ok_iff (o : Options) (linkage : Option Linkage) (drafts : List Draft) (parallelism : Nat)
    (schedule : List Turn) :
    ((∃ program, scheduled o linkage drafts parallelism schedule = .ok program) ↔ Buildable o linkage drafts) ∧
    (∀ program, scheduled o linkage drafts parallelism schedule = .ok program → program.OneForEach o.debug drafts) ∧
    ((∀ d ∈ drafts, ∃ e, d.emit o.debug = .ok e) → ¬ (drafts.map Draft.name).Nodup →
      ∃ cause, scheduled o linkage drafts parallelism schedule = .error (.breach cause)) ∧
    ∀ l cause, linkage = some l → l.literals = .error cause →
      scheduled o linkage drafts parallelism schedule = .error (.breach (.linkage cause)) := by
  refine ⟨⟨fun hok => ?_, fun h => h.scheduled parallelism schedule⟩, fun program => oneForEach_of_scheduled,
    fun hemits hrepeated => ?_, fun l cause hlinkage hcause => ?_⟩
  · obtain ⟨program, hok⟩ := hok
    exact buildable_of_scheduled hok
  · cases hs : scheduled o linkage drafts parallelism schedule with
    | ok program => exact absurd (buildable_of_scheduled hs).names hrepeated
    | error failure =>
      have hexplained := scheduled_explained hs
      cases failure with
      | breach cause => exact ⟨cause, rfl⟩
      | error e =>
        -- An emission error would be that of a draft, and there is none.
        cases e with
        | linkage => exact hexplained.elim
        | emission e =>
          obtain ⟨d, hd, he⟩ := hexplained
          obtain ⟨emission, hok⟩ := hemits d hd
          rw [hok] at he
          cases he
  · simp only [scheduled, linkageLiterals, hlinkage, hcause, bind, Except.bind]

/-- A failing draft keeps a single worker from the name that is used twice and two workers not; there is no program
either way. -/
example : (scheduled {} none [arrayDraft "f", brokenDraft "g", arrayDraft "f"] 1 []).isOk = false ∧
    (scheduled {} none [arrayDraft "f", brokenDraft "g", arrayDraft "f"] 2 [.worker 1]).isOk = false ∧
    (scheduled {} (some relayLinkage) [arrayDraft "f", arrayDraft "g"] 2 [.worker 1]).isOk = true := by
  decide +kernel

end Build

end ScriptAssembly
