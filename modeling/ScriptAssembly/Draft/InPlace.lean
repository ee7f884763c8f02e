import ScriptAssembly.Draft.Basic
/-
Storing literal buffers in a draft that is changed where it stands.

`addBuffer` and `pushBuffer` have a new draft last, so a call for which there
is no number left cannot leave anything behind. A draft in memory has no such
guarantee: here the counter is moved on and the buffer is stored by changes of
their own, and what was changed before a call was aborted stays changed.
-/
namespace ScriptAssembly.Draft

/-- A computation on a draft in memory, which may be aborted at any time. -/
abbrev InPlace (α : Type) := EStateM Breach Draft α

namespace InPlace

/-- The number after `n`; the call is aborted if there is none. -/
def successor (n : UInt32) : InPlace UInt32 :=
  match Draft.successor n with
  | .ok next => pure next
  | .error breach => throw breach

/-! ## Single changes -/

def setNextBuffer (next : UInt32) : InPlace Unit := modify fun d => { d with nextBuffer := next }

def storeBuffer (b : LiteralBuffer) : InPlace Unit := modify fun d => { d with buffers := d.buffers.push b }

/-! ## Calls -/

/-- Stores a literal buffer under the next id, and gives the id. -/
def addBuffer (literals : List Literal) : InPlace UInt32 := do
  let id := (← get).nextBuffer
  setNextBuffer (← successor id)
  storeBuffer ⟨id, literals⟩
  return id

/-- Stores a literal buffer under an id of the caller's choice. -/
def pushBuffer (b : LiteralBuffer) : InPlace Unit := do
  let id := (← get).nextBuffer
  setNextBuffer (max id (← successor b.id))
  storeBuffer b

end InPlace

/-! ## Calls as data -/

/-- A call that stores a literal buffer. -/
inductive BufferCall
  | add (literals : List Literal)
  | push (buffer : LiteralBuffer)
  deriving DecidableEq, Repr

namespace BufferCall

/-- The call, carried out in place; it gives the id that the caller did not choose. -/
def perform : BufferCall → InPlace (Option UInt32)
  | add literals => return some (← InPlace.addBuffer literals)
  | push b => do
    InPlace.pushBuffer b
    return none

/-- The draft after a call, whether or not the call came to its end. -/
def after (d : Draft) (c : BufferCall) : Draft :=
  match c.perform.run d with
  | .ok _ d' => d'
  | .error _ d' => d'

/-- The draft after calls in a row; an aborted call does not keep others from being made. -/
def afterAll (d : Draft) (calls : List BufferCall) : Draft := calls.foldl after d

end BufferCall

end ScriptAssembly.Draft
