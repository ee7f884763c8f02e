import ScriptAssembly.Double.Text
import ScriptAssembly.Text.Basic
/-
Literals: the tagged values of literal arrays, and the keys of these.

A literal array is a side table of values beside the instructions. Each
value is stored behind a tag of one byte. Two literals are the same value
when they agree up to the pattern of a double (`canonical`).
-/
namespace ScriptAssembly

/-- The tag written in front of a literal. -/
inductive LiteralTag
  | bool
  | integer
  | double
  | string
  | method
  | generatorMethod
  | accessor
  | methodAffiliate
  | null
  deriving DecidableEq, Repr

namespace LiteralTag

def all : List LiteralTag :=
  [.bool, .integer, .double, .string, .method, .generatorMethod, .accessor, .methodAffiliate, .null]

/-- The byte that stands for the tag. -/
def code : LiteralTag → UInt8
  | .bool => 1
  | .integer => 2
  | .double => 4
  | .string => 5
  | .method => 6
  | .generatorMethod => 7
  | .accessor => 8
  | .methodAffiliate => 9
  | .null => 255

/-- The tag's name in listings. -/
def name : LiteralTag → String
  | .bool => "Bool"
  | .integer => "Integer"
  | .double => "Double"
  | .string => "String"
  | .method => "Method"
  | .generatorMethod => "GeneratorMethod"
  | .accessor => "Accessor"
  | .methodAffiliate => "MethodAffiliate"
  | .null => "NullValue"

end LiteralTag

/-- A byte that stands for no tag. -/
structure UnknownLiteralTag where
  byte : UInt8
  deriving DecidableEq, Repr

/-- Says which byte it was. -/
def UnknownLiteralTag.message (e : UnknownLiteralTag) : String :=
  "No discriminant in enum \x60LiteralTag\x60 matches the value \x60"
    ++ Text.decimal e.byte.toNat ++ "\x60"

/-- The tag that a byte stands for. -/
def LiteralTag.ofCode (byte : UInt8) : Except UnknownLiteralTag LiteralTag :=
  match all.find? (·.code == byte) with
  | some tag => .ok tag
  | none => .error ⟨byte⟩

/-- A tagged value. -/
inductive Literal
  | bool (value : Bool)
  | integer (value : UInt32)
  | double (value : Double)
  | string (value : String)
  /-- A method, by the name of its function. -/
  | method (function : String)
  | generatorMethod (function : String)
  /-- A small number attached to the literal before it, such as the index of a module request. -/
  | methodAffiliate (value : UInt16)
  /-- The place of a getter and setter pair. -/
  | accessor
  | null
  deriving DecidableEq, Repr

namespace Literal

def tag : Literal → LiteralTag
  | .bool _ => .bool
  | .integer _ => .integer
  | .double _ => .double
  | .string _ => .string
  | .method _ => .method
  | .generatorMethod _ => .generatorMethod
  | .methodAffiliate _ => .methodAffiliate
  | .accessor => .accessor
  | .null => .null

/-- The string that belongs in the string table: that of a string literal, and no name. -/
def string? : Literal → Option String
  | .string s => some s
  | _ => none

/-- The value as it stands in a listing. -/
def text : Literal → String
  | .bool true => "true"
  | .bool false => "false"
  | .integer n => Text.decimal n.toNat
  | .double x => x.text
  | .string s => Text.quote s
  | .method f => f
  | .generatorMethod f => f
  | .methodAffiliate n => Text.decimal n.toNat
  | .accessor => "accessor"
  | .null => "null"

/-- The literal that stands for the value: a double is replaced by its canonical pattern. -/
def canonical : Literal → Literal
  | .double x => .double x.canonical
  | l => l

/-- Whether two literals are the same value. -/
def same (a b : Literal) : Bool := a.canonical == b.canonical

/-- The strings among literals, in order. -/
def strings (literals : List Literal) : List String := literals.filterMap string?

/-- Number of different values among literals. -/
def distinctCount (literals : List Literal) : Nat := (literals.map canonical).eraseDups.length

end Literal

/-! ## Keys

All literal arrays of a program share one table. The ids of literal buffers
are unique only inside their function, so a buffer's key carries the
function's name; the array of the module record has a key of its own. -/

/-- The key of a function's literal buffer: `function#id`. -/
def bufferKey (function : String) (id : UInt32) : String :=
  function ++ "#" ++ Text.decimal id.toNat

/-- The key of the module record's array under a main record of the given name. -/
def moduleRecordKey (recordName : String) : String := recordName ++ "_module_record"

end ScriptAssembly
