import ScriptAssembly.Build.Error
/-
Schedules: workers that share one builder.

A worker emits its drafts in order, adds each to the builder, and stops for
good at its first failure; beside the workers the module record is added,
once. What the builder refuses is recorded where it happened. Which of them
moves next is the choice of the schedule, turn by turn. Whatever a schedule
leaves undone is done after it in order (`drain`), so every list of turns is
the beginning of a complete run.
-/
namespace ScriptAssembly.Build

/-- How a worker came to stop before its work was done. -/
inductive Stop
  | error (cause : EmissionError)
  | breach (cause : Builder.Breach)
  deriving DecidableEq, Repr

/-- A worker: the drafts before it, and how it stopped if it did. -/
structure Worker where
  pending : List Draft
  stop : Option Stop

namespace Worker

/-- A worker that has not begun. -/
def ofChunk (drafts : List Draft) : Worker := ⟨drafts, none⟩

/-- A worker's turn: it emits its next draft and adds it to the builder. -/
def turn (debug : Bool) (w : Worker) (b : Builder) : Worker × Builder :=
  match w.stop, w.pending with
  | none, d :: ds =>
    match d.emit debug with
    | .error e => (⟨ds, some (.error e)⟩, b)
    | .ok emission =>
      match b.addFunction emission with
      | .error breach => (⟨ds, some (.breach breach)⟩, b)
      | .ok b' => (⟨ds, none⟩, b')
  | _, _ => (w, b)

/-- The breach that a worker stopped at. -/
def breach? (w : Worker) : Option Builder.Breach :=
  match w.stop with
  | some (.breach b) => some b
  | some (.error _) | none => none

/-- The emission error that a worker stopped at. -/
def error? (w : Worker) : Option EmissionError :=
  match w.stop with
  | some (.error e) => some e
  | some (.breach _) | none => none

/-- So many turns of a worker in a row. -/
def turns (debug : Bool) : Nat → Worker → Builder → Worker × Builder
  | 0, w, b => (w, b)
  | n + 1, w, b =>
    let (w', b') := w.turn debug b
    turns debug n w' b'

end Worker

/-- Who moves. -/
inductive Turn
  | worker (index : Nat)
  | moduleRecord
  deriving DecidableEq, Repr

/-- How far the module record of a build is. -/
inductive RecordStage
  | pending (literals : List Literal)
  | refused (cause : Builder.Breach)
  /-- It was added, or there is none. -/
  | done
  deriving DecidableEq, Repr

/-- The literals of a module record that is still to be added. -/
def RecordStage.pending? : RecordStage → Option (List Literal)
  | pending literals => some literals
  | refused _ | done => none

/-- A build under way. -/
structure State where
  workers : List Worker
  moduleRecord : RecordStage
  builder : Builder

namespace State

/-- Adds the module record if that is still to be done. -/
def addModuleRecord (o : Options) (s : State) : State :=
  match s.moduleRecord with
  | .pending literals =>
    match s.builder.addModuleRecord o.commonjs literals with
    | .ok b => { s with moduleRecord := .done, builder := b }
    | .error breach => { s with moduleRecord := .refused breach }
  | .refused _ | .done => s

/-- One turn; the turn of a worker that does not exist changes nothing. -/
def turn (o : Options) (s : State) : Turn → State
  | .moduleRecord => s.addModuleRecord o
  | .worker i =>
    match s.workers[i]? with
    | none => s
    | some w =>
      let (w', b) := w.turn o.debug s.builder
      { s with workers := s.workers.set i w', builder := b }

/-- Turns in the order of a schedule. -/
def run (o : Options) (s : State) (schedule : List Turn) : State :=
  schedule.foldl (turn o) s

/-- Lets workers finish, one after another. -/
def drainWorkers (debug : Bool) : List Worker → Builder → List Worker × Builder
  | [], b => ([], b)
  | w :: ws, b =>
    let (w', b) := w.turns debug w.pending.length b
    let (ws', b) := drainWorkers debug ws b
    (w' :: ws', b)

/-- Does what is left to do. -/
def drain (o : Options) (s : State) : State :=
  let (workers, builder) := drainWorkers o.debug s.workers s.builder
  { s with workers, builder }.addModuleRecord o

/-- The breach of the module record, or else the first one of a worker, in the order of the workers. -/
def breach? (s : State) : Option Builder.Breach :=
  match s.moduleRecord with
  | .refused b => some b
  | .pending _ | .done => s.workers.findSome? Worker.breach?

/-- The first emission error of a worker, in the order of the workers. -/
def error? (s : State) : Option EmissionError := s.workers.findSome? Worker.error?

/-- What a build that has come to its end amounts to. -/
def outcome (s : State) : Except Failure Builder :=
  match s.breach?, s.error? with
  | some b, _ => .error (.breach (.builder b))
  | none, some e => .error (.error (.emission e))
  | none, none => .ok s.builder

end State

end ScriptAssembly.Build
