import ScriptAssembly.Linkage.InPlace
/-
Calls in place, with request indexes that are words.

A table of requests counts in natural numbers, but in memory an index has 32
bits: the index of a new specifier is the number of specifiers in front of it,
less what is too high for a word, and that goes unnoticed. So behind the first
2^32 specifiers indexes would come a second time. Only a request makes an
index; the other calls are given theirs.
-/
namespace ScriptAssembly.Linkage

namespace InPlace

/-- Requests a module, and gives its index, which is a word. -/
def requestWord (specifier : String) : InPlace UInt32 := do
  require (!specifier.isEmpty) .emptySpecifier
  let l ← get
  match l.requests.indices[specifier]? with
  | some index => return index.toUInt32
  | none =>
    let index := l.requests.size.toUInt32
    pushSpecifier specifier
    indexSpecifier specifier index.toNat
    return index

end InPlace

namespace Call

/-- The call, carried out in place with indexes that are words. -/
def performInWords : Call → InPlace Reply
  | request s => do
    let index ← InPlace.requestWord s
    return .index index.toNat
  | c => c.perform

/-- The linkage after a call, whether or not the call came to its end. -/
def afterInWords (l : Linkage) (c : Call) : Linkage :=
  match c.performInWords.run l with
  | .ok _ l' => l'
  | .error _ l' => l'

/-- The linkage after calls in a row. -/
def afterAllInWords (l : Linkage) (calls : List Call) : Linkage := calls.foldl afterInWords l

end Call

end ScriptAssembly.Linkage
