import ScriptAssembly.Text.Basic
/-
Why a linkage refuses an entry.

A `Breach` is a mistake of the pass that registers the entries: a name that
must be there is missing, or a request index was never given out. That an
export name is taken is the fault of the module's own text, and an ordinary
error.
-/
namespace ScriptAssembly.Linkage

/-- A malformed entry. -/
inductive Breach
  | emptySpecifier
  | importWithoutImportName
  | importWithoutLocalName
  | namespaceWithImportName
  | localExportWithoutLocalName
  | localExportWithoutExportName
  | indirectExportWithoutImportName
  | indirectExportWithoutExportName
  | unknownRequest (index : Nat)
  deriving DecidableEq, Repr

def Breach.message : Breach → String
  | emptySpecifier => "module request specifier must not be empty"
  | importWithoutImportName => "regular import needs an import name"
  | importWithoutLocalName => "import needs a local name"
  | namespaceWithImportName => "namespace import must not name a binding"
  | localExportWithoutLocalName => "local export needs a local name"
  | localExportWithoutExportName => "local export needs an export name"
  | indirectExportWithoutImportName => "indirect export needs an import name"
  | indirectExportWithoutExportName => "indirect export needs an export name"
  | unknownRequest index =>
    "module request " ++ Text.decimal index ++ " was not registered with this record"

/-- The export name is used by a local or indirect export already. -/
structure DuplicateExport where
  name : String
  deriving DecidableEq, Repr

namespace DuplicateExport

def message (e : DuplicateExport) : String :=
  "duplicate export binding for name '" ++ e.name ++ "'"

/-- The error in diagnostics. -/
def describe (e : DuplicateExport) : String :=
  Text.braced "DuplicateExport" [("name", Text.quote e.name)]

end DuplicateExport

/-- Why an entry is not registered. -/
inductive Refusal
  | breach (cause : Breach)
  | duplicateExport (cause : DuplicateExport)
  deriving DecidableEq, Repr

/-- A breach unless the condition holds. -/
def require (condition : Bool) (otherwise : Breach) : Except Refusal Unit :=
  if condition then .ok () else .error (.breach otherwise)

end ScriptAssembly.Linkage
