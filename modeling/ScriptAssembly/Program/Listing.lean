import ScriptAssembly.Program.Basic
import ScriptAssembly.Text.Basic
/-
Listings: a program as assembly text.

A listing has four sections: literal arrays by key, records by name,
functions by key and strings, each in increasing order. Records and
functions are sorted here (`ofTables`), so the text does not depend on the
order in which a table gives its entries. Positions, locals and sources are
shown in a listing with debug information only.
-/
namespace ScriptAssembly.Listing

open Text

/-- A heading between sections. -/
def heading (title : String) : String := "\n# ====================\n# " ++ title ++ "\n\n"

/-- A literal behind its tag. -/
def literal (l : Literal) : String := l.tag.name ++ ":" ++ l.text

/-- A literal array: its key, its length, and its literals. -/
def literalArray (key : String) (literals : List Literal) : String :=
  let items := if literals.isEmpty then "" else " " ++ ", ".intercalate (literals.map literal)
  key ++ " \x7b " ++ decimal literals.length ++ " [" ++ items ++ " ]\x7d\n"

/-- A field: its type, its name and its value. -/
def field (f : Program.Field) : String :=
  match f.value with
  | .u8 v => "\tu8 " ++ f.name ++ " = " ++ decimal v.toNat ++ "\n"
  | .u32 v => "\tu32 " ++ f.name ++ " = " ++ decimal v.toNat ++ "\n"
  | .string v => "\tstring " ++ f.name ++ " = " ++ quote v ++ "\n"
  | .literalArray key => "\tliteral " ++ f.name ++ " = " ++ key ++ "\n"

def record (r : Program.Record) : String :=
  ".record " ++ r.name ++ " \x7b\n" ++ String.join (r.fields.map field) ++ "\x7d\n\n"

/-- An operand: names as they are, strings quoted, an offset behind an at sign. -/
def operand : Function.Operand → String
  | .register r => "v" ++ decimal r.toNat
  | .immediate v => signedDecimal v.toInt
  | .double x => x.text
  | .string s => quote s
  | .function f => f
  | .literalArray key => key
  | .offset o => "@" ++ decimal o

/-- The operands of an instruction behind its mnemonic. -/
def operands (os : List Function.Operand) : String :=
  if os.isEmpty then "" else " " ++ ", ".intercalate (os.map operand)

/-- A position as a comment at the end of a line. -/
def position (p : Position) : String :=
  "\t# line " ++ decimal p.line ++ ", column " ++ decimal p.column

/-- The line of the instruction at an offset. -/
def instruction (debug : Bool) (offset : Nat) (i : Function.Instruction) : String :=
  "\t" ++ padStart 4 ' ' (decimal offset) ++ ": " ++ i.opcode.mnemonic ++ operands i.operands
    ++ (if debug then (i.position.map position).getD "" else "") ++ "\n"

def catchBlock (b : Function.CatchBlock) : String :=
  "\t.catchall try @" ++ decimal b.tryBegin ++ "..@" ++ decimal b.tryEnd ++ ", catch @"
    ++ decimal b.handler ++ "\n"

def localVariable (v : Function.LocalVariable) : String :=
  "\t.local " ++ v.signature ++ " " ++ v.name ++ " v" ++ decimal v.register.toNat ++ " @"
    ++ decimal v.start ++ "+" ++ decimal v.length ++ "\n"

def source (s : Function.SourceInfo) : String :=
  "\t.source " ++ quote s.file ++ " checksum " ++ hex64 s.checksum ++ "\n"

/-- Every parameter is named by its number. -/
def parameters (count : Nat) : String :=
  ", ".intercalate ((List.range count).map fun i => "any a" ++ decimal i)

/-- The instructions of a function, each behind its offset. -/
def body (debug : Bool) (is : List Function.Instruction) : String :=
  String.join (is.zipIdx.map fun (i, offset) => instruction debug offset i)

def function (debug : Bool) (f : Function) : String :=
  ".function any " ++ f.name ++ "(" ++ parameters f.parameterCount.toNat ++ ") <" ++ f.kind.describe
    ++ "> \x7b\n" ++ body debug f.instructions ++ String.join (f.catchBlocks.map catchBlock)
    ++ (if debug then
          String.join (f.locals.map localVariable) ++ (f.source.map source).getD ""
        else "")
    ++ "\x7d\n\n"

/-- The listing of tables whose functions and records may come in any order. -/
def ofTables (debug : Bool) (literalArrays : List (String × List Literal))
    (records : List (String × Program.Record)) (functions : List (String × Function))
    (strings : List String) : String :=
  let records := (records.map (·.2)).mergeSort fun a b => a.name ≤ b.name
  let functions := functions.mergeSort fun a b => a.1 ≤ b.1
  ".language ECMAScript\n"
    ++ heading "LITERALS" ++ String.join (literalArrays.map fun e => literalArray e.1 e.2)
    ++ heading "RECORDS" ++ String.join (records.map record)
    ++ heading "METHODS" ++ String.join (functions.map fun e => function debug e.2)
    ++ heading "STRINGS" ++ String.join (strings.map fun s => quote s ++ "\n")

end ScriptAssembly.Listing
