import ScriptAssembly.Build.Basic
/-
The moves of a build under way.

`Moves` says all that one turn can do, so an invariant is checked against its
cases once and then holds of every run (`run_invariant`). Letting the workers
finish is a run as well (`drain_eq_run`), and behind it nobody has anything
left to do.
-/
namespace ScriptAssembly.Build

/-- A worker that has stopped or has no draft before it. -/
def Worker.Done (w : Worker) : Prop := w.stop.isSome ∨ w.pending = []

/-- What a worker's turn can do to the worker and the builder. -/
inductive Worker.Moves (debug : Bool) : Worker → Builder → Worker → Builder → Prop
  | rest {w b} : w.Done → Moves debug w b w b
  | fail {d ds b e} : d.emit debug = .error e → Moves debug ⟨d :: ds, none⟩ b ⟨ds, some (.error e)⟩ b
  | refuse {d ds b emission breach} : d.emit debug = .ok emission → b.addFunction emission = .error breach →
      Moves debug ⟨d :: ds, none⟩ b ⟨ds, some (.breach breach)⟩ b
  | add {d ds b emission b'} : d.emit debug = .ok emission → b.addFunction emission = .ok b' →
      Moves debug ⟨d :: ds, none⟩ b ⟨ds, none⟩ b'

theorem Worker.turn_moves (debug : Bool) (w : Worker) (b : Builder) :
    Moves debug w b (w.turn debug b).1 (w.turn debug b).2 := by
  obtain ⟨pending, stop⟩ := w
  cases stop with
  | some stop => exact .rest (.inl rfl)
  | none =>
    cases pending with
    | nil => exact .rest (.inr rfl)
    | cons d ds =>
      simp only [Worker.turn]
      split
      next e he => exact .fail he
      next emission he =>
        split
        next breach hb => exact .refuse he hb
        next b' hb => exact .add he hb

theorem Worker.turn_of_done {w : Worker} (h : w.Done) (debug : Bool) (b : Builder) : w.turn debug b = (w, b) := by
  obtain ⟨pending, stop⟩ := w
  cases stop with
  | some stop => rfl
  | none =>
    obtain rfl : pending = [] := h.resolve_left (by simp)
    rfl

theorem Worker.turns_of_done {w : Worker} (h : w.Done) (debug : Bool) (n : Nat) (b : Builder) :
    w.turns debug n b = (w, b) := by
  induction n with
  | zero => rfl
  | succ n ih => simpa only [Worker.turns, Worker.turn_of_done h] using ih

theorem Worker.breach?_eq_some {w : Worker} {breach : Builder.Breach} :
    w.breach? = some breach ↔ w.stop = some (.breach breach) := by
  unfold breach?
  split <;> simp_all

theorem Worker.error?_eq_some {w : Worker} {e : EmissionError} : w.error? = some e ↔ w.stop = some (.error e) := by
  unfold error?
  split <;> simp_all

theorem Worker.Moves.done_or_lt {debug : Bool} {w w' : Worker} {b b' : Builder} (h : Moves debug w b w' b') :
    w'.Done ∨ w'.pending.length < w.pending.length := by
  cases h with
  | rest h => exact .inl h
  | fail | refuse => exact .inl (.inl rfl)
  | add => exact .inr (Nat.lt_succ_self _)

/-- A worker with a turn for each of its drafts comes to its end. -/
theorem Worker.turns_done {debug : Bool} {n : Nat} {w : Worker} (hn : w.pending.length ≤ n) (b : Builder) :
    (w.turns debug n b).1.Done := by
  induction n generalizing w b with
  | zero => exact .inr (List.eq_nil_of_length_eq_zero (Nat.le_zero.mp hn))
  | succ n ih =>
    simp only [Worker.turns]
    rcases (Worker.turn_moves debug w b).done_or_lt with hd | hlt
    · rw [Worker.turns_of_done hd]
      exact hd
    · exact ih (by omega) _

namespace State

variable {o : Options}

/-- What a turn can do to a build. -/
inductive Moves (o : Options) : State → State → Prop
  | idle {s} : Moves o s s
  | worker {before w after w' record b b'} : Worker.Moves o.debug w b w' b' →
      Moves o ⟨before ++ w :: after, record, b⟩ ⟨before ++ w' :: after, record, b'⟩
  | refuseRecord {ws literals b breach} : b.addModuleRecord o.commonjs literals = .error breach →
      Moves o ⟨ws, .pending literals, b⟩ ⟨ws, .refused breach, b⟩
  | addRecord {ws literals b b'} : b.addModuleRecord o.commonjs literals = .ok b' →
      Moves o ⟨ws, .pending literals, b⟩ ⟨ws, .done, b'⟩

/-- What all workers have, they still have when it holds of the one that moved. -/
theorem forall_mem_moved {P : Worker → Prop} {before after : List Worker} {w w' : Worker}
    (h : ∀ v ∈ before ++ w :: after, P v) (hw : P w') : ∀ v ∈ before ++ w' :: after, P v := by
  intro v hv
  rw [List.mem_append, List.mem_cons] at hv
  rcases hv with hv | rfl | hv
  · exact h v (List.mem_append_left _ hv)
  · exact hw
  · exact h v (List.mem_append_right _ (List.mem_cons_of_mem w hv))

theorem turn_worker (before : List Worker) (w : Worker) (after : List Worker) (record : RecordStage)
    (b : Builder) :
    (State.mk (before ++ w :: after) record b).turn o (.worker before.length) =
      ⟨before ++ (w.turn o.debug b).1 :: after, record, (w.turn o.debug b).2⟩ := by
  simp [State.turn]

theorem turn_moves (s : State) (t : Turn) : Moves o s (s.turn o t) := by
  obtain ⟨ws, record, b⟩ := s
  cases t with
  | moduleRecord =>
    cases record with
    | refused | done => exact .idle
    | pending literals =>
      simp only [State.turn, addModuleRecord]
      split
      next b' hb => exact .addRecord hb
      next breach hb => exact .refuseRecord hb
  | worker i =>
    rcases Nat.lt_or_ge i ws.length with hi | hi
    · obtain ⟨before, w, after, rfl, rfl⟩ : ∃ before w after, ws = before ++ w :: after ∧ before.length = i :=
        ⟨ws.take i, ws[i], ws.drop (i + 1), by simp, by simp [Nat.le_of_lt hi]⟩
      rw [turn_worker]
      exact .worker (Worker.turn_moves _ _ _)
    · simp only [State.turn, List.getElem?_eq_none hi]
      exact .idle

/-- What every move keeps, every run keeps. -/
theorem run_invariant {I : State → Prop} (keep : ∀ {s s'}, Moves o s s' → I s → I s') {s : State}
    (schedule : List Turn) (h : I s) : I (s.run o schedule) := by
  induction schedule generalizing s with
  | nil => exact h
  | cons t schedule ih => exact ih (keep (turn_moves s t) h)

theorem run_append (s : State) (before after : List Turn) :
    s.run o (before ++ after) = (s.run o before).run o after := by
  simp [State.run]

/-! ## Draining -/

theorem run_replicate (before : List Worker) (w : Worker) (after : List Worker) (record : RecordStage)
    (b : Builder) (n : Nat) :
    (State.mk (before ++ w :: after) record b).run o (List.replicate n (.worker before.length)) =
      ⟨before ++ (w.turns o.debug n b).1 :: after, record, (w.turns o.debug n b).2⟩ := by
  induction n generalizing w b with
  | zero => rfl
  | succ n ih =>
    rw [List.replicate_succ, State.run, List.foldl_cons, turn_worker]
    exact ih _ _

/-- The workers finish one after another by turns of their own. -/
theorem drainWorkers_eq_run (before ws : List Worker) (record : RecordStage) (b : Builder) :
    ∃ schedule, (State.mk (before ++ ws) record b).run o schedule =
      ⟨before ++ (drainWorkers o.debug ws b).1, record, (drainWorkers o.debug ws b).2⟩ := by
  induction ws generalizing before b with
  | nil => exact ⟨[], rfl⟩
  | cons w ws ih =>
    obtain ⟨schedule, hs⟩ := ih (before ++ [(w.turns o.debug w.pending.length b).1])
      (w.turns o.debug w.pending.length b).2
    refine ⟨List.replicate w.pending.length (.worker before.length) ++ schedule, ?_⟩
    rw [run_append, run_replicate]
    simpa [drainWorkers] using hs

/-- Doing what is left to do is a run. -/
theorem drain_eq_run (s : State) : ∃ schedule, s.run o schedule = s.drain o := by
  obtain ⟨ws, record, b⟩ := s
  obtain ⟨schedule, hs⟩ := drainWorkers_eq_run (o := o) [] ws record b
  refine ⟨schedule ++ [.moduleRecord], ?_⟩
  rw [run_append]
  simp only [List.nil_append] at hs
  rw [hs]
  rfl

/-- A build in which nobody has anything left to do. -/
structure Finished (s : State) : Prop where
  workers : ∀ w ∈ s.workers, w.Done
  moduleRecord : s.moduleRecord.pending? = none

theorem drainWorkers_done (debug : Bool) (ws : List Worker) (b : Builder) :
    ∀ w ∈ (drainWorkers debug ws b).1, w.Done := by
  induction ws generalizing b with
  | nil => simp [drainWorkers]
  | cons w ws ih =>
    simp only [drainWorkers, List.mem_cons, forall_eq_or_imp]
    exact ⟨Worker.turns_done (Nat.le_refl _) b, ih _⟩

theorem addModuleRecord_workers (s : State) : (s.addModuleRecord o).workers = s.workers := by
  unfold addModuleRecord
  split
  · split <;> rfl
  all_goals rfl

theorem addModuleRecord_moduleRecord (s : State) : (s.addModuleRecord o).moduleRecord.pending? = none := by
  unfold addModuleRecord
  split
  · split <;> rfl
  next h => rw [h]; rfl
  next h => rw [h]; rfl

theorem drain_finished (s : State) : (s.drain o).Finished where
  workers := by
    simp only [drain, addModuleRecord_workers]
    exact drainWorkers_done _ _ _
  moduleRecord := addModuleRecord_moduleRecord _

end State

end ScriptAssembly.Build
