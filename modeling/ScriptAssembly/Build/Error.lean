import ScriptAssembly.Emission.Error
import ScriptAssembly.Linkage.Sections
import ScriptAssembly.Program.Builder
/-
Why a build has no program.

An error is a fault of the module's own text or of a draft; a breach is a
mistake of the caller, who has two functions of one name or a linkage that
does not fit its literal array.
-/
namespace ScriptAssembly

/-- An error of linkage or of emission. -/
inductive BuildError
  | linkage (cause : Linkage.DuplicateExport)
  | emission (cause : EmissionError)
  deriving DecidableEq, Repr

namespace BuildError

def message : BuildError → String
  | linkage e => e.message
  | emission e => e.message

/-- The cause in diagnostics. -/
def describeCause : BuildError → String
  | linkage e => e.describe
  | emission e => e.describe

/-- The function that an emission error is about. -/
def function? : BuildError → Option String
  | linkage _ => none
  | emission e => some e.function

def isLinkage : BuildError → Bool
  | linkage _ => true
  | emission _ => false

def isEmission : BuildError → Bool
  | linkage _ => false
  | emission _ => true

end BuildError

namespace Build

/-- A mistake of the caller that ends a build. -/
inductive Breach
  | linkage (cause : Sections.Breach)
  | builder (cause : Builder.Breach)
  deriving DecidableEq, Repr

def Breach.message : Breach → String
  | linkage b => b.message
  | builder b => b.message

/-- Why a build has no program. -/
inductive Failure
  | breach (cause : Breach)
  | error (cause : BuildError)
  deriving DecidableEq, Repr

end Build

end ScriptAssembly
