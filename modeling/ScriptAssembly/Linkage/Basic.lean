import ScriptAssembly.Linkage.Refusal
import ScriptAssembly.Linkage.Tables
/-
The linkage of a module: what it asks of other modules and offers to them.

A local export whose name a regular import binds does not export a binding
of this module: it passes on the imported one, so it is kept as an indirect
export. Import and export may come in either order, and both ways lead
through the first import of the name. An export name is used once among the
local and indirect exports together; star exports are not checked, since
their names are known only when modules are linked.

An operation that is refused has no new linkage, so nothing of it can stay
behind.
-/
namespace ScriptAssembly

/-- The module requests, imports and exports of one module. -/
structure Linkage where
  requests : Linkage.RequestTable
  regularImports : Linkage.ImportTable
  namespaceImports : Array Import
  localExports : Linkage.LocalExportTable
  indirectExports : Array IndirectExport
  starExports : Array StarExport

namespace Linkage

/-- The linkage of a module that neither imports nor exports. -/
def empty : Linkage := ⟨.empty, .empty, #[], .empty, #[], #[]⟩

/-- Every export: local, then indirect, then star. -/
def exports (l : Linkage) : List Export :=
  l.localExports.toList.map .localExport ++ l.indirectExports.toList.map .indirectExport
    ++ l.starExports.toList.map .starExport

/-- Whether no local or indirect export has the name. The groups of local exports are gone through
as they are kept, not in the order in which they are listed. -/
def isFree (l : Linkage) (exportName : String) : Bool :=
  !(l.localExports.stored.any (·.exportName == exportName)
    || l.indirectExports.any (·.exportName == exportName))

/-- A breach unless the request index was given out by this linkage. -/
def requireRequest (l : Linkage) (index : Nat) : Except Refusal Unit :=
  require (index < l.requests.size) (.unknownRequest index)

/-- The index of a module specifier, which must not be empty. -/
def request (l : Linkage) (specifier : String) : Except Refusal (Nat × Linkage) := do
  require (!specifier.isEmpty) .emptySpecifier
  let (index, requests) := l.requests.request specifier
  return (index, { l with requests })

/-- Turns the local exports of a binding into indirect exports through its import. -/
def redirectExports (l : Linkage) (i : Import) : Linkage :=
  { l with
    localExports := l.localExports.removeGroup i.localName
    indirectExports :=
      l.indirectExports ++ ((l.localExports.group i.localName).map (·.redirect i)).toArray }

/-- Registers a regular import, and redirects the local exports of its binding. -/
def addImport (l : Linkage) (i : Import) : Except Refusal Linkage := do
  require (!i.importName.isEmpty) .importWithoutImportName
  require (!i.localName.isEmpty) .importWithoutLocalName
  l.requireRequest i.request
  return ({ l with regularImports := l.regularImports.push i }).redirectExports i

/-- Registers a namespace import. -/
def addNamespaceImport (l : Linkage) (i : Import) : Except Refusal Linkage := do
  require i.importName.isEmpty .namespaceWithImportName
  require (!i.localName.isEmpty) .importWithoutLocalName
  l.requireRequest i.request
  return { l with namespaceImports := l.namespaceImports.push i }

/-- An error if the export name is taken. -/
def requireFree (l : Linkage) (exportName : String) : Except Refusal Unit :=
  if l.isFree exportName then .ok () else .error (.duplicateExport ⟨exportName⟩)

/-- Registers an indirect export. -/
def addIndirectExport (l : Linkage) (e : IndirectExport) : Except Refusal Linkage := do
  require (!e.importName.isEmpty) .indirectExportWithoutImportName
  require (!e.exportName.isEmpty) .indirectExportWithoutExportName
  l.requireRequest e.request
  l.requireFree e.exportName
  return { l with indirectExports := l.indirectExports.push e }

/-- Registers a local export, as an indirect one if a regular import binds its local name. -/
def addLocalExport (l : Linkage) (e : LocalExport) : Except Refusal Linkage := do
  require (!e.localName.isEmpty) .localExportWithoutLocalName
  require (!e.exportName.isEmpty) .localExportWithoutExportName
  match l.regularImports.first? e.localName with
  | some i => l.addIndirectExport (e.redirect i)
  | none =>
    l.requireFree e.exportName
    return { l with localExports := l.localExports.insert e }

/-- Registers a star export. -/
def addStarExport (l : Linkage) (e : StarExport) : Except Refusal Linkage := do
  l.requireRequest e.request
  return { l with starExports := l.starExports.push e }

/-- Registers an export of any shape. -/
def addExport (l : Linkage) : Export → Except Refusal Linkage
  | .localExport e => l.addLocalExport e
  | .indirectExport e => l.addIndirectExport e
  | .starExport e => l.addStarExport e

end Linkage

end ScriptAssembly
