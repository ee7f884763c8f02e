import ScriptAssembly.Linkage.Basic
/-
Runs of registrations.

A `Registration` is one call on a linkage, as data. A run takes any number of
them in any order; one that is refused leaves the linkage as it was.
-/
namespace ScriptAssembly.Linkage

/-- One call on a linkage. -/
inductive Registration
  | request (specifier : String)
  | regularImport (entry : Import)
  | namespaceImport (entry : Import)
  | localExport (entry : LocalExport)
  | indirectExport (entry : IndirectExport)
  | starExport (entry : StarExport)
  deriving DecidableEq, Repr

/-- The linkage after a registration, or why it is refused. -/
def register (l : Linkage) : Registration → Except Refusal Linkage
  | .request s => (l.request s).map (·.2)
  | .regularImport i => l.addImport i
  | .namespaceImport i => l.addNamespaceImport i
  | .localExport e => l.addLocalExport e
  | .indirectExport e => l.addIndirectExport e
  | .starExport e => l.addStarExport e

/-- The linkage after a registration that may be refused. -/
def attempt (l : Linkage) (r : Registration) : Linkage :=
  match l.register r with
  | .ok l' => l'
  | .error _ => l

/-- The linkage after a run of registrations. -/
def run (l : Linkage) (rs : List Registration) : Linkage := rs.foldl attempt l

end ScriptAssembly.Linkage
