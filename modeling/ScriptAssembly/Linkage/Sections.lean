import ScriptAssembly.Linkage.Basic
import ScriptAssembly.Literal.Basic
/-
The linkage as a literal array.

A linkage is stored in six sections: requests, regular imports, namespace
imports, local exports, indirect exports, star exports. Each is its number of
entries and then the entries one after another, without any separator; a
request index is a method affiliate, so it has 16 bits. `Sections.literals`
writes them, and `Sections.read?` reads them back by nothing but the counts.
-/
namespace ScriptAssembly

/-- The contents of a linkage, section by section. -/
structure Sections where
  requests : List String
  regularImports : List Import
  namespaceImports : List Import
  localExports : List LocalExport
  indirectExports : List IndirectExport
  starExports : List StarExport
  deriving DecidableEq, Repr

/-- The sections of a linkage. -/
def Linkage.sections (l : Linkage) : Sections where
  requests := l.requests.toList
  regularImports := l.regularImports.toList
  namespaceImports := l.namespaceImports.toList
  localExports := l.localExports.toList
  indirectExports := l.indirectExports.toList
  starExports := l.starExports.toList

namespace Sections

/-- A number too large for its literal. -/
inductive Breach
  | sectionTooLong (entries : Nat)
  | requestTooLarge (index : Nat)
  deriving DecidableEq, Repr

def Breach.message : Breach → String
  | sectionTooLong n => "module record section of " ++ Text.decimal n ++ " entries"
  | requestTooLarge i => "module request " ++ Text.decimal i ++ " does not fit a method affiliate"

/-! Writing -/

/-- The number of entries of a section. -/
def countLiteral (n : Nat) : Except Breach Literal :=
  if n < UInt32.size then .ok (.integer n.toUInt32) else .error (.sectionTooLong n)

/-- A request index. -/
def requestLiteral (index : Nat) : Except Breach Literal :=
  if index < UInt16.size then .ok (.methodAffiliate index.toUInt16)
  else .error (.requestTooLarge index)

def specifierLiterals (s : String) : Except Breach (List Literal) := .ok [.string s]

def regularImportLiterals (i : Import) : Except Breach (List Literal) := do
  return [.string i.localName, .string i.importName, ← requestLiteral i.request]

def namespaceImportLiterals (i : Import) : Except Breach (List Literal) := do
  return [.string i.localName, ← requestLiteral i.request]

def localExportLiterals (e : LocalExport) : Except Breach (List Literal) :=
  .ok [.string e.localName, .string e.exportName]

def indirectExportLiterals (e : IndirectExport) : Except Breach (List Literal) := do
  return [.string e.exportName, .string e.importName, ← requestLiteral e.request]

def starExportLiterals (e : StarExport) : Except Breach (List Literal) := do
  return [← requestLiteral e.request]

/-- A section: the count, then each entry. -/
def sectionLiterals {α : Type} (entry : α → Except Breach (List Literal)) (entries : List α) :
    Except Breach (List Literal) := do
  let count ← countLiteral entries.length
  let parts ← entries.mapM entry
  return count :: parts.flatten

/-- The six sections in order. -/
def literals (s : Sections) : Except Breach (List Literal) := do
  let requests ← sectionLiterals specifierLiterals s.requests
  let regularImports ← sectionLiterals regularImportLiterals s.regularImports
  let namespaceImports ← sectionLiterals namespaceImportLiterals s.namespaceImports
  let localExports ← sectionLiterals localExportLiterals s.localExports
  let indirectExports ← sectionLiterals indirectExportLiterals s.indirectExports
  let starExports ← sectionLiterals starExportLiterals s.starExports
  return requests ++ regularImports ++ namespaceImports ++ localExports ++ indirectExports
    ++ starExports

/-! Reading -/

/-- Reads one thing from the front of an array, and gives what is left of it. -/
abbrev Reader (α : Type) := List Literal → Option (α × List Literal)

def readSpecifier? : Reader String
  | .string s :: rest => some (s, rest)
  | _ => none

def readRegularImport? : Reader Import
  | .string l :: .string i :: .methodAffiliate r :: rest => some (⟨r.toNat, i, l⟩, rest)
  | _ => none

def readNamespaceImport? : Reader Import
  | .string l :: .methodAffiliate r :: rest => some (.ofNamespace r.toNat l, rest)
  | _ => none

def readLocalExport? : Reader LocalExport
  | .string l :: .string e :: rest => some (⟨e, l⟩, rest)
  | _ => none

def readIndirectExport? : Reader IndirectExport
  | .string e :: .string i :: .methodAffiliate r :: rest => some (⟨e, i, r.toNat⟩, rest)
  | _ => none

def readStarExport? : Reader StarExport
  | .methodAffiliate r :: rest => some (⟨r.toNat⟩, rest)
  | _ => none

/-- Reads `n` entries. -/
def readEntries? {α : Type} (entry : Reader α) : Nat → Reader (List α)
  | 0, rest => some ([], rest)
  | n + 1, literals => do
    let (x, rest) ← entry literals
    let (xs, rest) ← readEntries? entry n rest
    return (x :: xs, rest)

/-- Reads a section: its count, then so many entries. -/
def readSection? {α : Type} (entry : Reader α) : Reader (List α)
  | .integer n :: rest => readEntries? entry n.toNat rest
  | _ => none

/-- Reads the six sections in order. -/
def read? : Reader Sections := fun literals => do
  let (requests, rest) ← readSection? readSpecifier? literals
  let (regularImports, rest) ← readSection? readRegularImport? rest
  let (namespaceImports, rest) ← readSection? readNamespaceImport? rest
  let (localExports, rest) ← readSection? readLocalExport? rest
  let (indirectExports, rest) ← readSection? readIndirectExport? rest
  let (starExports, rest) ← readSection? readStarExport? rest
  return ({ requests, regularImports, namespaceImports, localExports, indirectExports,
            starExports }, rest)

end Sections

/-- The literal array of a linkage. -/
def Linkage.literals (l : Linkage) : Except Sections.Breach (List Literal) := l.sections.literals

end ScriptAssembly
