import Mathlib.Data.List.Nodup
import ScriptAssembly.Linkage.Registration
import ScriptAssembly.Proofs.Schedule
import ScriptAssembly.Proofs.Emission
import ScriptAssembly.Proofs.Builder
/-
A build's outcome does not depend on how its drafts are dealt out, nor on who
moves when.

At any time a build has a fate, the first emission error that its workers
will come to, and an ending, the builder with everything put in that is still
to come. A move realizes a part of what is to come and changes neither of
them; this is where functions of different names must not get in each other's
way. At the end nothing is to come, so fate and ending are the outcome
(`drained_outcome`), and at the beginning they are those of the drafts in
order.
-/
namespace ScriptAssembly

/-- The error of a draft that cannot be emitted. -/
def Draft.error? (debug : Bool) (d : Draft) : Option EmissionError :=
  match d.emit debug with
  | .error e => some e
  | .ok _ => none

/-- The emissions of drafts up to the first that fails. -/
def emittable (debug : Bool) : List Draft → List Emission
  | [] => []
  | d :: ds =>
    match d.emit debug with
    | .ok e => e :: emittable debug ds
    | .error _ => []

theorem names_emittable (debug : Bool) (ds : List Draft) :
    ((emittable debug ds).map (·.function.name)).Sublist (ds.map Draft.name) := by
  induction ds with
  | nil => exact .slnil
  | cons d ds ih =>
    simp only [emittable]
    split
    next e he =>
      simp only [List.map_cons, Emission.name_of_emit he]
      exact .cons_cons _ ih
    · exact List.nil_sublist _

theorem names_flatMap_emittable (debug : Bool) (dss : List (List Draft)) :
    ((dss.flatMap (emittable debug)).map (·.function.name)).Sublist (dss.flatten.map Draft.name) := by
  induction dss with
  | nil => exact .slnil
  | cons ds dss ih =>
    simp only [List.flatMap_cons, List.flatten_cons, List.map_append]
    exact (names_emittable debug ds).append ih

/-- Where no draft fails, dealing them out leaves out none. -/
theorem flatMap_emittable {debug : Bool} {dss : List (List Draft)} {es : List Emission}
    (h : dss.flatten.map (Draft.emit debug) = es.map .ok) : dss.flatMap (emittable debug) = es := by
  have hall : ∀ ds : List Draft, (∀ d ∈ ds, ∃ e, d.emit debug = .ok e) →
      emittable debug ds = ds.filterMap fun d => (d.emit debug).toOption := by
    intro ds hds
    induction ds with
    | nil => rfl
    | cons d ds ih =>
      obtain ⟨e, he⟩ := hds d (by simp)
      simp only [emittable, he, List.filterMap_cons, Except.toOption, ih fun x hx => hds x (by simp [hx])]
  have hok : ∀ d ∈ dss.flatten, ∃ e, d.emit debug = .ok e := by
    intro d hd
    have hmem := List.mem_map_of_mem (f := Draft.emit debug) hd
    rw [h, List.mem_map] at hmem
    obtain ⟨e, -, he⟩ := hmem
    exact ⟨e, he.symm⟩
  calc dss.flatMap (emittable debug)
      = dss.flatMap fun ds => ds.filterMap fun d => (d.emit debug).toOption :=
        List.flatMap_congr fun ds hds => hall ds fun d hd => hok d (List.mem_flatten.mpr ⟨ds, hds, hd⟩)
    _ = (dss.flatten.map (Draft.emit debug)).filterMap Except.toOption := by
        rw [List.filterMap_map, List.filterMap_flatten, List.flatMap_def]; rfl
    _ = es := by
        rw [h, List.filterMap_map]
        exact List.filterMap_some

theorem findSome?_congr {α β : Type} {f g : α → Option β} {xs : List α} (h : ∀ x ∈ xs, f x = g x) :
    xs.findSome? f = xs.findSome? g := by
  induction xs with
  | nil => rfl
  | cons x xs ih =>
    rw [List.findSome?_cons, List.findSome?_cons, h x (by simp), ih fun y hy => h y (by simp [hy])]

theorem findSome?_flatten {α β : Type} (f : α → Option β) (xss : List (List α)) :
    xss.flatten.findSome? f = xss.findSome? (·.findSome? f) := by
  induction xss with
  | nil => rfl
  | cons xs xss ih =>
    rw [List.flatten_cons, List.findSome?_append, ih, List.findSome?_cons]
    cases xs.findSome? f <;> rfl

namespace Builder

/-- The builder with one emitted function after another. -/
def putAll (b : Builder) (es : List Emission) : Builder := es.foldl putFunction b

/-- The builder with the module record, if there is one to come. -/
def putRecord? (o : Options) (b : Builder) : Option (List Literal) → Builder
  | none => b
  | some literals => b.putModuleRecord o.commonjs literals

theorem putAll_perm {es fs : List Emission} (h : es.Perm fs) (hn : (es.map (·.function.name)).Nodup) (b : Builder) :
    b.putAll es = b.putAll fs := by
  refine h.foldl_eq' (fun d hd e he c => ?_) b
  by_cases hde : d = e
  · rw [hde]
  · exact putFunction_comm fun hname => hde (List.inj_on_of_nodup_map hn hd he hname)

theorem putModuleRecord_putAll (b : Builder) (es : List Emission) (commonjs : Bool) (literals : List Literal) :
    (b.putAll es).putModuleRecord commonjs literals = (b.putModuleRecord commonjs literals).putAll es := by
  induction es generalizing b with
  | nil => rfl
  | cons e es ih =>
    simp only [putAll, List.foldl_cons] at ih ⊢
    rw [ih, putModuleRecord_putFunction]

end Builder

namespace Build

/-! ## What is to come -/

namespace Worker

/-- The functions that a worker will still add. -/
def todo (debug : Bool) (w : Worker) : List Emission :=
  match w.stop with
  | none => emittable debug w.pending
  | some _ => []

/-- The emission error that a worker has come to or will come to. -/
def fate (debug : Bool) (w : Worker) : Option EmissionError :=
  match w.stop with
  | none => w.pending.findSome? (Draft.error? debug)
  | some (.error e) => some e
  | some (.breach _) => none

/-- A worker that was not refused by the builder. -/
def Unrefused (w : Worker) : Prop := ∀ breach, w.stop ≠ some (.breach breach)

/-- A move changes no fate; it adds the next function that is to come, or adds none. -/
theorem Moves.progress {debug : Bool} {w w' : Worker} {b b' : Builder} (h : Moves debug w b w' b')
    (hf : ∀ e ∈ w.todo debug, e.function.name ∉ b.program.functions) (hu : w.Unrefused) :
    w'.Unrefused ∧ w'.fate debug = w.fate debug ∧
      ((w'.todo debug = w.todo debug ∧ b' = b) ∨
        ∃ e, w.todo debug = e :: w'.todo debug ∧ e.function.name ∉ b.program.functions ∧ b' = b.putFunction e) := by
  cases h with
  | rest => exact ⟨hu, rfl, .inl ⟨rfl, rfl⟩⟩
  | fail he =>
    refine ⟨fun breach => by simp, ?_, .inl ⟨?_, rfl⟩⟩
    · simp [fate, Draft.error?, he]
    · simp [todo, emittable, he]
  | refuse he hb =>
    rename_i d ds emission breach
    have hmem : emission ∈ (Worker.mk (d :: ds) none).todo debug := by simp [todo, emittable, he]
    rw [Builder.addFunction_eq_ok.mpr ⟨hf _ hmem, rfl⟩] at hb
    cases hb
  | add he hb =>
    obtain ⟨hnew, rfl⟩ := Builder.addFunction_eq_ok.mp hb
    refine ⟨hu, ?_, .inr ⟨_, ?_, hnew, rfl⟩⟩
    · simp [fate, Draft.error?, he]
    · simp [todo, emittable, he]

end Worker

namespace State

variable {o : Options}

def todo (o : Options) (s : State) : List Emission := s.workers.flatMap (Worker.todo o.debug)

/-- The emission error that a build comes to. -/
def fate (o : Options) (s : State) : Option EmissionError := s.workers.findSome? (Worker.fate o.debug)

/-- The builder with everything that is to come. -/
def ending (o : Options) (s : State) : Builder := (s.builder.putAll (s.todo o)).putRecord? o s.moduleRecord.pending?

/-- A build whose module record was not refused and will not be. -/
structure RecordFits (s : State) : Prop where
  unrefused : ∀ breach, s.moduleRecord ≠ .refused breach
  place : s.moduleRecord.pending?.isSome → s.builder.commonjs = none

/-- A build in which no call of the builder will be refused. -/
structure Ready (o : Options) (s : State) : Prop where
  names : ((s.todo o).map (·.function.name)).Nodup
  fresh : ∀ e ∈ s.todo o, e.function.name ∉ s.builder.program.functions
  unrefused : ∀ w ∈ s.workers, w.Unrefused
  record : s.RecordFits

theorem todo_worker (before : List Worker) (w : Worker) (after : List Worker) (record : RecordStage)
    (b : Builder) :
    (State.mk (before ++ w :: after) record b).todo o =
      before.flatMap (Worker.todo o.debug) ++ (w.todo o.debug ++ after.flatMap (Worker.todo o.debug)) := by
  simp [State.todo]

theorem RecordFits.breach?_eq {s : State} (h : s.RecordFits) : s.breach? = s.workers.findSome? Worker.breach? := by
  unfold breach?
  split
  next breach hrefused => exact absurd hrefused (h.unrefused breach)
  all_goals rfl

/-- No move takes the place that is kept for the module record, but its own. -/
theorem Moves.recordFits {s s' : State} (h : Moves o s s') (hr : s.RecordFits) : s'.RecordFits := by
  cases h with
  | idle => exact hr
  | refuseRecord hb =>
    rw [Builder.addModuleRecord_eq_ok.mpr ⟨hr.place rfl, rfl⟩] at hb
    cases hb
  | addRecord => exact ⟨by simp, by simp [RecordStage.pending?]⟩
  | worker hw =>
    cases hw with
    | rest | fail | refuse => exact ⟨hr.unrefused, hr.place⟩
    | add _ hb =>
      obtain ⟨-, rfl⟩ := Builder.addFunction_eq_ok.mp hb
      exact ⟨hr.unrefused, hr.place⟩

/-- **A move changes neither fate nor ending.** -/
theorem Moves.keeps {s s' : State} (h : Moves o s s') (hr : s.Ready o) :
    s'.Ready o ∧ s'.fate o = s.fate o ∧ s'.ending o = s.ending o := by
  have hrecord := h.recordFits hr.record
  cases h with
  | idle => exact ⟨hr, rfl, rfl⟩
  | refuseRecord => exact absurd rfl (hrecord.unrefused _)
  | addRecord hb =>
    obtain ⟨-, rfl⟩ := Builder.addModuleRecord_eq_ok.mp hb
    refine ⟨⟨hr.names, hr.fresh, hr.unrefused, hrecord⟩, rfl, ?_⟩
    exact (Builder.putModuleRecord_putAll _ _ _ _).symm
  | @worker before w after w' record b b' hw =>
    have hmem : ∀ e ∈ w.todo o.debug, e ∈ (State.mk (before ++ w :: after) record b).todo o := by
      intro e he
      rw [todo_worker]
      exact List.mem_append_right _ (List.mem_append_left _ he)
    obtain ⟨hu, hfate, hcase⟩ := hw.progress (fun e he => hr.fresh e (hmem e he)) (hr.unrefused w (by simp))
    have hunrefused : ∀ v ∈ before ++ w' :: after, v.Unrefused := forall_mem_moved hr.unrefused hu
    have hfates : (State.mk (before ++ w' :: after) record b').fate o =
        (State.mk (before ++ w :: after) record b).fate o := by
      simp only [State.fate, List.findSome?_append, List.findSome?_cons, hfate]
    rcases hcase with ⟨htodo, rfl⟩ | ⟨e, htodo, hnew, rfl⟩
    · have hsame : (State.mk (before ++ w' :: after) record b').todo o =
          (State.mk (before ++ w :: after) record b').todo o := by
        rw [todo_worker, todo_worker, htodo]
      refine ⟨⟨hsame ▸ hr.names, hsame ▸ hr.fresh, hunrefused, hrecord⟩, hfates, ?_⟩
      simp only [State.ending, hsame]
    · have hperm : (State.mk (before ++ w :: after) record b).todo o |>.Perm
          (e :: (State.mk (before ++ w' :: after) record (b.putFunction e)).todo o) := by
        rw [todo_worker, todo_worker, htodo]
        exact List.perm_middle
      have hnames := (hperm.map (·.function.name)).nodup_iff.mp hr.names
      rw [List.map_cons, List.nodup_cons] at hnames
      refine ⟨⟨hnames.2, fun f hf => ?_, hunrefused, hrecord⟩, hfates, ?_⟩
      · rw [Builder.mem_putFunction_functions]
        intro htaken
        rcases htaken with heq | hold
        · exact hnames.1 (heq ▸ List.mem_map_of_mem hf)
        · exact hr.fresh f (hperm.mem_iff.mpr (List.mem_cons_of_mem e hf)) hold
      · simp only [State.ending, Builder.putAll_perm hperm hr.names]
        rfl

/-- What a build with the given fate and ending amounts to. -/
def verdict (fate : Option EmissionError) (ending : Builder) : Except Failure Builder :=
  match fate with
  | some e => .error (.error (.emission e))
  | none => .ok ending

/-- When nobody has anything left to do, fate and ending are there. -/
theorem Finished.outcome {s : State} (hf : s.Finished) (hr : s.Ready o) :
    s.outcome = verdict (s.fate o) (s.ending o) := by
  have hbreach : s.breach? = none := by
    rw [hr.record.breach?_eq, List.findSome?_eq_none_iff]
    refine fun w hw => Option.eq_none_iff_forall_ne_some.mpr fun breach hbreach => ?_
    exact hr.unrefused w hw breach (Worker.breach?_eq_some.mp hbreach)
  have herror : s.error? = s.fate o := by
    refine findSome?_congr fun w hw => ?_
    rcases hf.workers w hw with hd | hd
    · cases hstop : w.stop with
      | none => simp [hstop] at hd
      | some stop => cases stop <;> simp [Worker.error?, Worker.fate, hstop]
    · cases hstop : w.stop with
      | none => simp [Worker.error?, Worker.fate, hstop, hd]
      | some stop => cases stop <;> simp [Worker.error?, Worker.fate, hstop]
  have htodo : s.todo o = [] := by
    simp only [State.todo, List.flatMap_eq_nil_iff]
    intro w hw
    rcases hf.workers w hw with hd | hd
    · cases hstop : w.stop with
      | none => simp [hstop] at hd
      | some stop => simp [Worker.todo, hstop]
    · cases hstop : w.stop <;> simp [Worker.todo, hstop, hd, emittable]
  simp only [State.outcome, hbreach, herror, verdict, State.ending, htodo, hf.moduleRecord]
  cases s.fate o <;> rfl

/-- **Whatever the schedule,** the outcome is the fate and the ending that there were before. -/
theorem drained_outcome {s : State} (hr : s.Ready o) (schedule : List Turn) :
    ((s.run o schedule).drain o).outcome = verdict (s.fate o) (s.ending o) := by
  obtain ⟨rest, hrest⟩ := drain_eq_run (o := o) (s.run o schedule)
  have hkeep : (s.run o (schedule ++ rest)).Ready o ∧ (s.run o (schedule ++ rest)).fate o = s.fate o ∧
      (s.run o (schedule ++ rest)).ending o = s.ending o := by
    refine run_invariant (I := fun t => t.Ready o ∧ t.fate o = s.fate o ∧ t.ending o = s.ending o)
      (fun hm hI => ?_) _ ⟨hr, rfl, rfl⟩
    obtain ⟨hr', hfate, hend⟩ := hm.keeps hI.1
    exact ⟨hr', hfate.trans hI.2.1, hend.trans hI.2.2⟩
  rw [run_append, hrest] at hkeep
  rw [(drain_finished _).outcome hkeep.1, hkeep.2.1, hkeep.2.2]

end State

/-! ## The beginning -/

section Begin

variable {o : Options} {literals : Option (List Literal)} {drafts : List Draft} {parallelism : Nat}

theorem todo_begin : (begin o literals drafts parallelism).todo o =
    (chunks (chunkSize parallelism drafts.length) drafts).flatMap (emittable o.debug) := by
  simp only [State.todo, begin, List.flatMap_map]
  rfl

theorem ending_begin : (begin o literals drafts parallelism).ending o =
    ((Builder.start o).putAll ((chunks (chunkSize parallelism drafts.length) drafts).flatMap (emittable o.debug))).putRecord?
      o literals := by
  rw [State.ending, todo_begin]
  cases literals <;> rfl

theorem fate_begin : (begin o literals drafts parallelism).fate o = drafts.findSome? (Draft.error? o.debug) := by
  simp only [State.fate, begin, List.findSome?_map]
  rw [← chunks_flatten (chunkSize parallelism drafts.length) drafts, findSome?_flatten, chunks_flatten]
  rfl

theorem recordFits_begin : (begin o literals drafts parallelism).RecordFits :=
  ⟨by cases literals <;> simp [begin], fun _ => rfl⟩

/-- Drafts of different names can be built. -/
theorem begin_ready (hn : (drafts.map Draft.name).Nodup) : (begin o literals drafts parallelism).Ready o where
  names := by
    rw [todo_begin]
    have hsub := names_flatMap_emittable o.debug (chunks (chunkSize parallelism drafts.length) drafts)
    rw [chunks_flatten] at hsub
    exact hsub.nodup hn
  fresh := by simp [begin, Builder.start, Program.empty]
  unrefused := by
    simp only [begin, List.mem_map]
    intro w hw breach
    obtain ⟨c, -, rfl⟩ := hw
    simp [Worker.ofChunk]
  record := recordFits_begin

/-! ## In order -/

/-- The program that is put together in order: the functions, and then the module record. -/
def inOrder (o : Options) (literals : Option (List Literal)) (emissions : List Emission) :
    Except Builder.Breach Program := do
  let b ← emissions.foldlM Builder.addFunction (.start o)
  match literals with
  | none => return b.finish
  | some literals => return (← b.addModuleRecord o.commonjs literals).finish

theorem foldlM_addFunction {es : List Emission} {b : Builder} (hn : (es.map (·.function.name)).Nodup)
    (hf : ∀ e ∈ es, e.function.name ∉ b.program.functions) :
    es.foldlM Builder.addFunction b = .ok (b.putAll es) := by
  induction es generalizing b with
  | nil => rfl
  | cons e es ih =>
    rw [List.map_cons, List.nodup_cons] at hn
    rw [List.foldlM_cons, Builder.addFunction_eq_ok.mpr ⟨hf e (by simp), rfl⟩]
    refine ih hn.2 fun d hd => ?_
    rw [Builder.mem_putFunction_functions]
    intro htaken
    rcases htaken with heq | hold
    · exact hn.1 (heq ▸ List.mem_map_of_mem hd)
    · exact hf d (by simp [hd]) hold

theorem putAll_commonjs (b : Builder) (es : List Emission) : (b.putAll es).commonjs = b.commonjs := by
  induction es generalizing b with
  | nil => rfl
  | cons e es ih => exact ih (b.putFunction e)

theorem inOrder_eq {es : List Emission} (hn : (es.map (·.function.name)).Nodup) :
    inOrder o literals es = .ok (((Builder.start o).putAll es).putRecord? o literals).finish := by
  have hfold := foldlM_addFunction (b := .start o) hn (by simp [Builder.start, Program.empty])
  simp only [inOrder, hfold]
  cases literals with
  | none => rfl
  | some literals =>
    have hadd : ((Builder.start o).putAll es).addModuleRecord o.commonjs literals = .ok _ :=
      Builder.addModuleRecord_eq_ok.mpr ⟨(putAll_commonjs (.start o) es).trans rfl, rfl⟩
    simp only [bind, Except.bind, hadd]
    rfl

/-- A build under any schedule amounts to the fate and the ending of its beginning. -/
theorem scheduled_eq {linkage : Option Linkage} (hl : linkageLiterals linkage = .ok literals)
    (hn : (drafts.map Draft.name).Nodup) (schedule : List Turn) :
    scheduled o linkage drafts parallelism schedule =
      (State.verdict (drafts.findSome? (Draft.error? o.debug))
        ((begin o literals drafts parallelism).ending o)).map Builder.finish := by
  simp only [scheduled, hl, bind, Except.bind]
  rw [State.drained_outcome (begin_ready hn), fate_begin]
  cases State.verdict (drafts.findSome? (Draft.error? o.debug)) ((begin o literals drafts parallelism).ending o) <;> rfl

/-- **Neither the dealing nor the schedule shows in the outcome.** Where all drafts are emitted, the build
gives the program that is put together in order; else it gives the error of the first draft that fails. -/
theorem scheduled_eq_inOrder {linkage : Option Linkage} (hl : linkageLiterals linkage = .ok literals)
    (hn : (drafts.map Draft.name).Nodup) (parallelism : Nat) (schedule : List Turn) :
    (∀ emissions, drafts.map (Draft.emit o.debug) = emissions.map .ok →
      ∃ program, inOrder o literals emissions = .ok program ∧
        scheduled o linkage drafts parallelism schedule = .ok program) ∧
    ∀ before d after e, drafts = before ++ d :: after → (∀ x ∈ before, ∃ emission, x.emit o.debug = .ok emission) →
      d.emit o.debug = .error e →
      scheduled o linkage drafts parallelism schedule = .error (.error (.emission e)) := by
  refine ⟨fun emissions he => ?_, fun before d after e hsplit hbefore hd => ?_⟩
  · have htodo : (chunks (chunkSize parallelism drafts.length) drafts).flatMap (emittable o.debug) = emissions :=
      flatMap_emittable (by rw [chunks_flatten, he])
    have hready : (begin o literals drafts parallelism).Ready o := begin_ready hn
    have hnames := hready.names
    rw [todo_begin, htodo] at hnames
    refine ⟨_, inOrder_eq hnames, ?_⟩
    have hfate : drafts.findSome? (Draft.error? o.debug) = none := by
      rw [List.findSome?_eq_none_iff]
      intro d hd
      have hmem := List.mem_map_of_mem (f := Draft.emit o.debug) hd
      rw [he, List.mem_map] at hmem
      obtain ⟨emission, -, hok⟩ := hmem
      simp only [Draft.error?, ← hok]
    rw [scheduled_eq hl hn, hfate, ending_begin, htodo]
    rfl
  · have hfate : drafts.findSome? (Draft.error? o.debug) = some e := by
      have hnone : before.findSome? (Draft.error? o.debug) = none := by
        rw [List.findSome?_eq_none_iff]
        intro x hx
        obtain ⟨emission, hok⟩ := hbefore x hx
        simp only [Draft.error?, hok]
      rw [hsplit, List.findSome?_append, hnone, List.findSome?_cons]
      simp [Draft.error?, hd]
    rw [scheduled_eq hl hn, hfate]
    rfl

end Begin

/-- A function that makes an array of its own name. -/
def arrayDraft (name : String) : Draft where
  name
  kind := .plain
  parameterCount := 0
  source := ⟨"m.js", ""⟩
  nodes := #[.instruction ⟨.createArrayWithBuffer, [.buffer 0], none⟩, .instruction ⟨.returnValue, [], none⟩]
  buffers := #[⟨0, [.string name]⟩]

/-- A function whose only instruction lacks its operands. -/
def brokenDraft (name : String) : Draft where
  name
  kind := .plain
  parameterCount := 0
  source := ⟨"m.js", ""⟩
  nodes := #[.instruction ⟨.mov, [], none⟩]

/-- A module that passes on what it imports. -/
def relayLinkage : Linkage :=
  Linkage.empty.run [.request "m", .localExport ⟨"y", "x"⟩, .regularImport ⟨0, "z", "x"⟩]

/-- Names of which one is the beginning of another's key, and the second worker moves first; and two
functions that fail, the later of which fails first. -/
theorem scheduled_eq_inOrder_arrays :
    (∃ literals emissions program, linkageLiterals (some relayLinkage) = .ok literals ∧
      [arrayDraft "f", arrayDraft "f#0", arrayDraft "g"].map (Draft.emit false) = emissions.map .ok ∧
      inOrder {} literals emissions = .ok program ∧
      scheduled {} (some relayLinkage) [arrayDraft "f", arrayDraft "f#0", arrayDraft "g"] 2
        [.worker 1, .moduleRecord, .worker 0] = .ok program) ∧
    ∃ e, (brokenDraft "g").emit false = .error e ∧
      scheduled {} (some relayLinkage) [arrayDraft "f", brokenDraft "g", brokenDraft "h"] 3
        [.worker 2, .worker 1] = .error (.error (.emission e)) := by
  obtain ⟨literals, hl⟩ := exists_ok_of_isOk (x := linkageLiterals (some relayLinkage)) (by decide +kernel)
  obtain ⟨f, hf⟩ := exists_ok_of_isOk (x := (arrayDraft "f").emit false) (by decide +kernel)
  obtain ⟨f', hf'⟩ := exists_ok_of_isOk (x := (arrayDraft "f#0").emit false) (by decide +kernel)
  obtain ⟨g, hg⟩ := exists_ok_of_isOk (x := (arrayDraft "g").emit false) (by decide +kernel)
  constructor
  · have he : [arrayDraft "f", arrayDraft "f#0", arrayDraft "g"].map (Draft.emit false) = [f, f', g].map .ok := by
      simp only [List.map_cons, List.map_nil, hf, hf', hg]
    obtain ⟨program, hp, hs⟩ := (scheduled_eq_inOrder (o := {}) hl (by decide) 2
      [.worker 1, .moduleRecord, .worker 0]).1 [f, f', g] he
    exact ⟨literals, [f, f', g], program, hl, he, hp, hs⟩
  · refine ⟨_, rfl, ?_⟩
    refine (scheduled_eq_inOrder (o := {}) hl (by decide) 3 [.worker 2, .worker 1]).2 [arrayDraft "f"]
      (brokenDraft "g") [brokenDraft "h"] _ rfl ?_ rfl
    simpa using ⟨f, hf⟩

end Build

end ScriptAssembly
