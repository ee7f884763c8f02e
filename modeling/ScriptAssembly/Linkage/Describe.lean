import ScriptAssembly.Linkage.Sections
import ScriptAssembly.Text.Basic
/-
Linkage entries and sections in diagnostics.

Names are quoted; a request is its index behind a number sign.
-/
namespace ScriptAssembly

open Text

/-- A request index behind a number sign. -/
def describeRequest (index : Nat) : String := "#" ++ decimal index

def Import.describe (i : Import) : String :=
  braced "ImportEntry" [("module_request", describeRequest i.request),
    ("import_name", quote i.importName), ("local_name", quote i.localName)]

def LocalExport.describe (e : LocalExport) : String :=
  braced "LocalExport" [("export_name", quote e.exportName), ("local_name", quote e.localName)]

def IndirectExport.describe (e : IndirectExport) : String :=
  braced "IndirectExport" [("export_name", quote e.exportName),
    ("import_name", quote e.importName), ("module_request", describeRequest e.request)]

def StarExport.describe (e : StarExport) : String :=
  braced "StarExport" [("module_request", describeRequest e.request)]

/-- An export behind the name of its shape. -/
def Export.describe : Export → String
  | .localExport e => tagged "Local" e.describe
  | .indirectExport e => tagged "Indirect" e.describe
  | .starExport e => tagged "Star" e.describe

/-- All sections of a linkage. -/
def Sections.describe (s : Sections) : String :=
  braced "SourceTextModuleRecord" [
    ("module_requests", bracketed (s.requests.map quote)),
    ("regular_imports", bracketed (s.regularImports.map Import.describe)),
    ("namespace_imports", bracketed (s.namespaceImports.map Import.describe)),
    ("local_exports", bracketed (s.localExports.map LocalExport.describe)),
    ("indirect_exports", bracketed (s.indirectExports.map IndirectExport.describe)),
    ("star_exports", bracketed (s.starExports.map StarExport.describe))]

end ScriptAssembly
