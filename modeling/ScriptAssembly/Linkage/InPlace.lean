import ScriptAssembly.Linkage.Registration
/-
Calls on a linkage that is changed where it stands.

`register` decides first and has a new linkage last, so a registration that it
refuses cannot leave anything behind. A linkage in memory has no such
guarantee: here a call is a sequence of checks and single changes, and
whatever was changed before the call came to its end, or was aborted, stays
changed. A call aborts where a check fails, or where the index of imports
leads out of bounds.
-/
namespace ScriptAssembly.Linkage

/-- Why a call does not come to its end. -/
inductive Abort
  | breach (cause : Breach)
  /-- The index of imports has a position at which there is no import. -/
  | danglingPosition (position : Nat)
  deriving DecidableEq, Repr

/-- A computation on a linkage in memory, which may be aborted at any time. -/
abbrev InPlace (α : Type) := EStateM Abort Linkage α

namespace InPlace

/-- Aborts unless the condition holds. -/
def require (condition : Bool) (otherwise : Breach) : InPlace Unit :=
  if condition then pure () else throw (.breach otherwise)

/-- Aborts unless the request index was given out. -/
def requireRequest (index : Nat) : InPlace Unit := do
  let l ← get
  require (index < l.requests.size) (.unknownRequest index)

/-! ## Single changes -/

def pushSpecifier (specifier : String) : InPlace Unit :=
  modify fun l => { l with requests := { l.requests with specifiers := l.requests.specifiers.push specifier } }

def indexSpecifier (specifier : String) (index : Nat) : InPlace Unit :=
  modify fun l => { l with requests := { l.requests with indices := l.requests.indices.insert specifier index } }

def pushImport (i : Import) : InPlace Unit :=
  modify fun l => { l with regularImports := { l.regularImports with entries := l.regularImports.entries.push i } }

def indexImport (localName : String) (position : Nat) : InPlace Unit :=
  modify fun l => { l with regularImports := { l.regularImports with
    positions := l.regularImports.positions.insert localName ((l.regularImports.positionsOf localName).push position) } }

def pushNamespaceImport (i : Import) : InPlace Unit :=
  modify fun l => { l with namespaceImports := l.namespaceImports.push i }

def putGroup (localName : String) (es : Array LocalExport) : InPlace Unit :=
  modify fun l => { l with localExports := { l.localExports with groups := l.localExports.groups.insert localName es } }

def eraseGroup (localName : String) : InPlace Unit :=
  modify fun l => { l with localExports := { l.localExports with groups := l.localExports.groups.erase localName } }

def pushName (localName : String) : InPlace Unit :=
  modify fun l => { l with localExports := { l.localExports with order := l.localExports.order.push localName } }

def dropName (localName : String) : InPlace Unit :=
  modify fun l => { l with localExports := { l.localExports with
    order := l.localExports.order.filter (· != localName) } }

def pushIndirectExport (e : IndirectExport) : InPlace Unit :=
  modify fun l => { l with indirectExports := l.indirectExports.push e }

def pushStarExport (e : StarExport) : InPlace Unit :=
  modify fun l => { l with starExports := l.starExports.push e }

/-! ## Calls -/

/-- Requests a module, and gives its index. -/
def request (specifier : String) : InPlace Nat := do
  require (!specifier.isEmpty) .emptySpecifier
  let l ← get
  match l.requests.indices[specifier]? with
  | some index => return index
  | none =>
    pushSpecifier specifier
    indexSpecifier specifier l.requests.size
    return l.requests.size

/-- Takes the local exports of an imported name out of their table, and adds one after another to the indirect ones. -/
def redirectExports (i : Import) : InPlace Unit := do
  let l ← get
  match l.localExports.groups[i.localName]? with
  | none => return
  | some es =>
    eraseGroup i.localName
    dropName i.localName
    es.toList.forM fun e => pushIndirectExport (e.redirect i)

def addImport (i : Import) : InPlace Unit := do
  require (!i.importName.isEmpty) .importWithoutImportName
  require (!i.localName.isEmpty) .importWithoutLocalName
  requireRequest i.request
  let l ← get
  pushImport i
  indexImport i.localName l.regularImports.size
  redirectExports i

def addNamespaceImport (i : Import) : InPlace Unit := do
  require i.importName.isEmpty .namespaceWithImportName
  require (!i.localName.isEmpty) .importWithoutLocalName
  requireRequest i.request
  pushNamespaceImport i

/-- The import at the first position that the index has for a local name. -/
def firstImport? (localName : String) : InPlace (Option Import) := do
  let l ← get
  match (l.regularImports.positionsOf localName).toList with
  | [] => return none
  | position :: _ =>
    match l.regularImports.entries[position]? with
    | some i => return some i
    | none => throw (.danglingPosition position)

/-- The import at a position. -/
def importAt (position : Nat) : InPlace Import := do
  let l ← get
  match l.regularImports.entries[position]? with
  | some i => return i
  | none => throw (.danglingPosition position)

/-- The imports at all positions that the index has for a local name. -/
def importsOf (localName : String) : InPlace (List Import) := do
  let l ← get
  (l.regularImports.positionsOf localName).toList.mapM importAt

/-- Makes a change if an export name is free, and tells whether it was. -/
def ifFree (exportName : String) (change : InPlace Unit) : InPlace Bool := do
  let l ← get
  if l.isFree exportName then
    change
    return true
  else return false

def addIndirectExport (e : IndirectExport) : InPlace Bool := do
  require (!e.importName.isEmpty) .indirectExportWithoutImportName
  require (!e.exportName.isEmpty) .indirectExportWithoutExportName
  requireRequest e.request
  ifFree e.exportName (pushIndirectExport e)

/-- Adds an export to the group of its local name, which may be a new group. -/
def insertLocalExport (e : LocalExport) : InPlace Unit := do
  let l ← get
  match l.localExports.groups[e.localName]? with
  | some es => putGroup e.localName (es.push e)
  | none =>
    putGroup e.localName #[e]
    pushName e.localName

/-- Adds a local export, or the indirect one that it amounts to. -/
def addLocalExport (e : LocalExport) : InPlace Bool := do
  require (!e.localName.isEmpty) .localExportWithoutLocalName
  require (!e.exportName.isEmpty) .localExportWithoutExportName
  match ← firstImport? e.localName with
  | some i => addIndirectExport (e.redirect i)
  | none => ifFree e.exportName (insertLocalExport e)

def addStarExport (e : StarExport) : InPlace Unit := do
  requireRequest e.request
  pushStarExport e

/-- Adds an export of any shape. -/
def addExport : Export → InPlace Bool
  | .localExport e => addLocalExport e
  | .indirectExport e => addIndirectExport e
  | .starExport e => do
    addStarExport e
    return true

/-- What a refusal is to callers that want an error. -/
def orDuplicate (exportName : String) (accepted : Bool) : Except DuplicateExport Unit :=
  if accepted then .ok () else .error ⟨exportName⟩

def tryAddLocalExport (e : LocalExport) : InPlace (Except DuplicateExport Unit) := do
  return orDuplicate e.exportName (← addLocalExport e)

def tryAddIndirectExport (e : IndirectExport) : InPlace (Except DuplicateExport Unit) := do
  return orDuplicate e.exportName (← addIndirectExport e)

end InPlace

/-! ## Calls as data -/

/-- A call on a linkage that may change it. -/
inductive Call
  | request (specifier : String)
  | addImport (entry : Import)
  | addNamespaceImport (entry : Import)
  | addLocalExport (entry : LocalExport)
  | addIndirectExport (entry : IndirectExport)
  | addStarExport (entry : StarExport)
  | addExport (entry : Export)
  | tryAddLocalExport (entry : LocalExport)
  | tryAddIndirectExport (entry : IndirectExport)
  deriving DecidableEq, Repr

/-- What a call that comes to its end gives back. -/
inductive Reply
  | done
  | index (index : Nat)
  | accepted (accepted : Bool)
  | outcome (outcome : Except DuplicateExport Unit)
  deriving Repr

/-- Whether the reply says that an export name was taken. -/
def Reply.isRefusal : Reply → Bool
  | accepted false | outcome (.error _) => true
  | done | index _ | accepted true | outcome (.ok _) => false

namespace Call

/-- The call, carried out in place. -/
def perform : Call → InPlace Reply
  | request s => return .index (← InPlace.request s)
  | addImport i => do
    InPlace.addImport i
    return .done
  | addNamespaceImport i => do
    InPlace.addNamespaceImport i
    return .done
  | addLocalExport e => return .accepted (← InPlace.addLocalExport e)
  | addIndirectExport e => return .accepted (← InPlace.addIndirectExport e)
  | addStarExport e => do
    InPlace.addStarExport e
    return .done
  | addExport e => return .accepted (← InPlace.addExport e)
  | tryAddLocalExport e => return .outcome (← InPlace.tryAddLocalExport e)
  | tryAddIndirectExport e => return .outcome (← InPlace.tryAddIndirectExport e)

/-- The linkage after a call, whether or not the call came to its end. -/
def after (l : Linkage) (c : Call) : Linkage :=
  match c.perform.run l with
  | .ok _ l' => l'
  | .error _ l' => l'

/-- The linkage after calls in a row; an aborted call does not keep others from being made. -/
def afterAll (l : Linkage) (calls : List Call) : Linkage := calls.foldl after l

end Call

end ScriptAssembly.Linkage
