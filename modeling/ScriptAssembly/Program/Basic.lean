import ScriptAssembly.Function.Basic
import ScriptAssembly.Literal.Basic
import Std.Data.ExtTreeMap
import Std.Data.ExtTreeSet
/-
Programs.

A program holds functions, records of named fields, literal arrays and the
strings of all of them. Each table is a finite map from names, ordered by
name, so two programs with the same contents are equal, whatever was put in
first.
-/
namespace ScriptAssembly

namespace Program

/-- The value of a record's field. -/
inductive FieldValue
  | u8 (value : UInt8)
  | u32 (value : UInt32)
  | string (value : String)
  /-- A literal array, by its key in the program. -/
  | literalArray (key : String)
  deriving DecidableEq, Repr

structure Field where
  name : String
  value : FieldValue
  deriving DecidableEq, Repr

/-- A named group of fields. -/
structure Record where
  name : String
  fields : List Field
  deriving DecidableEq, Repr

namespace Record

/-- A record without fields. -/
def named (name : String) : Record := ⟨name, []⟩

/-- The record with one more field at its end. -/
def addField (r : Record) (name : String) (value : FieldValue) : Record :=
  { r with fields := r.fields ++ [⟨name, value⟩] }

/-- The value of the first field of that name. -/
def field? (r : Record) (name : String) : Option FieldValue :=
  (r.fields.find? (·.name == name)).map (·.value)

end Record

end Program

/-- Functions, records, literal arrays and strings. -/
structure Program where
  functions : Std.ExtTreeMap String Function
  records : Std.ExtTreeMap String Program.Record
  literalArrays : Std.ExtTreeMap String (List Literal)
  strings : Std.ExtTreeSet String
  deriving DecidableEq

namespace Program

def empty : Program := ⟨∅, ∅, ∅, ∅⟩

def function? (p : Program) (name : String) : Option Function := p.functions[name]?

def record? (p : Program) (name : String) : Option Record := p.records[name]?

def literalArray? (p : Program) (key : String) : Option (List Literal) := p.literalArrays[key]?

def functionCount (p : Program) : Nat := p.functions.size

/-- The names of the functions, in increasing order. -/
def functionNames (p : Program) : List String := p.functions.keys

end Program

end ScriptAssembly
