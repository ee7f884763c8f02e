import ScriptAssembly.Build.Schedule
import ScriptAssembly.Program.Sink
/-
Builds: from drafts and a linkage to a program.

A build deals its drafts out to workers in consecutive chunks of one size.
The outcome is that of the linkage if it does not fit its literal array, else
of the module record if the builder refused it, else of the first worker that
broke a rule of the builder, else of the first worker with an emission error,
else the program.
-/
namespace ScriptAssembly

namespace Build

/-- Number of workers for `n` drafts where at most `parallelism` can run at a time. -/
def workerCount (parallelism n : Nat) : Nat := max 1 (min parallelism n)

/-- The chunk size that deals `n` drafts out evenly. -/
def chunkSize (parallelism n : Nat) : Nat :=
  let workers := workerCount parallelism n
  max 1 ((n + workers - 1) / workers)

/-- The literals of an optional linkage, or why they do not fit. -/
def linkageLiterals (linkage : Option Linkage) : Except Failure (Option (List Literal)) :=
  match linkage with
  | none => .ok none
  | some l =>
    match l.literals with
    | .ok literals => .ok (some literals)
    | .error b => .error (.breach (.linkage b))

/-- The state in which a build begins. -/
def begin (o : Options) (literals : Option (List Literal)) (drafts : List Draft)
    (parallelism : Nat) : State where
  workers := (chunks (chunkSize parallelism drafts.length) drafts).map Worker.ofChunk
  moduleRecord := literals.elim .done .pending
  builder := .start o

/-- The program of a build under a schedule. -/
def scheduled (o : Options) (linkage : Option Linkage) (drafts : List Draft) (parallelism : Nat)
    (schedule : List Turn) : Except Failure Program := do
  let literals ← linkageLiterals linkage
  let s := ((begin o literals drafts parallelism).run o schedule).drain o
  return (← s.outcome).finish

/-- What a build prints of its program: at most two listings, the one with debug information
first. -/
def printed (o : Options) (p : Program) : String :=
  p.listingIf o.dumpDebugInfo true ++ p.listingIf o.dumpListing false

end Build

/-- Builds a program from drafts and an optional linkage with a single worker. -/
def build (o : Options) (linkage : Option Linkage) (drafts : List Draft) :
    Except Build.Failure Program :=
  Build.scheduled o linkage drafts 1 []

end ScriptAssembly
