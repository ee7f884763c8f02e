/-
Entries of a module's linkage: what it imports and what it exports.

A module names each module that it takes something from once, in a module
request, and its entries refer to the request by index. Bindings arrive by
name (`import`), or all at once as a namespace object; they leave as a local
binding, as a binding of another module, or as everything that another
module exports.
-/
namespace ScriptAssembly

/-- An import `{ importName as localName }` from a requested module. In a
namespace import the import name is empty. -/
structure Import where
  request : Nat
  importName : String
  localName : String
  deriving DecidableEq, Repr

namespace Import

/-- The import `* as localName`. -/
def ofNamespace (request : Nat) (localName : String) : Import := ⟨request, "", localName⟩

def isNamespace (i : Import) : Bool := i.importName.isEmpty

end Import

/-- An export `{ localName as exportName }` of a binding of this module. -/
structure LocalExport where
  exportName : String
  localName : String
  deriving DecidableEq, Repr

/-- An export `{ importName as exportName }` of a binding of a requested module. -/
structure IndirectExport where
  exportName : String
  importName : String
  request : Nat
  deriving DecidableEq, Repr

/-- An export `*` of all that a requested module exports. -/
structure StarExport where
  request : Nat
  deriving DecidableEq, Repr

/-- The indirect export that a local export of an imported binding amounts to. -/
def LocalExport.redirect (e : LocalExport) (i : Import) : IndirectExport :=
  ⟨e.exportName, i.importName, i.request⟩

/-- An export of any shape. -/
inductive Export
  | localExport (entry : LocalExport)
  | indirectExport (entry : IndirectExport)
  | starExport (entry : StarExport)
  deriving DecidableEq, Repr

namespace Export

/-- The name that importers use; a star export has none. -/
def exportName? : Export → Option String
  | localExport e => some e.exportName
  | indirectExport e => some e.exportName
  | starExport _ => none

/-- The request of the module that the binding comes from; a local export has none. -/
def request? : Export → Option Nat
  | localExport _ => none
  | indirectExport e => some e.request
  | starExport e => some e.request

end Export

end ScriptAssembly
