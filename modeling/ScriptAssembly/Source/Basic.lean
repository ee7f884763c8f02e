import ScriptAssembly.Text.Basic
/-
Source files, byte ranges, and line and column of a byte offset.

An inverted range, which ends before it starts, is allowed and is empty. A
newline byte ends its line and belongs to it; a carriage return in front of it
is an ordinary byte.

A `LineTable` keeps the offset at which each line of a text starts. The table
grows by one byte at a time (`push`), so what it says of a text follows by
induction on the bytes, and `locate` finds a line by binary search.
-/
namespace ScriptAssembly

/-- A source text and the path it was read from. -/
structure SourceFile where
  path : String
  text : String
  deriving DecidableEq, Repr

/-- The bytes from offset `start` up to, and not including, offset `stop`. -/
structure Span where
  start : Nat
  stop : Nat
  deriving DecidableEq, Repr

namespace Span

/-- Number of bytes covered. -/
def length (s : Span) : Nat := s.stop - s.start

def isEmpty (s : Span) : Bool := s.length == 0

/-- The range in diagnostics. -/
def describe (s : Span) : String :=
  Text.braced "SourceRange" [("start", Text.decimal s.start), ("end", Text.decimal s.stop)]

end Span

/-! ## Positions -/

/-- A place in a text; lines and columns count from one, columns in bytes. -/
structure Position where
  line : Nat
  column : Nat
  deriving DecidableEq, Repr

/-- Line and column with a colon between them. -/
def Position.text (p : Position) : String :=
  Text.decimal p.line ++ ":" ++ Text.decimal p.column

/-- Where the lines of a text start, and how many bytes it has. -/
structure LineTable where
  /-- Offset of the first byte of each line, in increasing order. -/
  starts : Array Nat
  length : Nat
  deriving DecidableEq, Repr

namespace LineTable

/-- The table of the empty text, which is one empty line. -/
def empty : LineTable := ⟨#[0], 0⟩

/-- The byte that ends a line. -/
def newline : UInt8 := 0x0a

/-- The table of the text with one more byte at its end. -/
def push : LineTable → UInt8 → LineTable
  | ⟨starts, length⟩, b => ⟨if b = newline then starts.push (length + 1) else starts, length + 1⟩

def ofBytes (bytes : List UInt8) : LineTable := bytes.foldl push empty

@[simp] theorem ofBytes_concat (bytes : List UInt8) (b : UInt8) :
    ofBytes (bytes ++ [b]) = (ofBytes bytes).push b := by
  simp [ofBytes]

def ofText (text : String) : LineTable := ofBytes text.toUTF8.data.toList

/-- Number of lines; a newline at the end of the text opens one more, empty line. -/
def lineCount (t : LineTable) : Nat := t.starts.size

/-- How many of the increasing `starts` between the positions `lo` and `hi`, counted from the first,
are at most `offset`, given that all those before `lo` are and none from `hi` on is. -/
def countUpTo (starts : Array Nat) (offset lo hi : Nat) (hhi : hi ≤ starts.size) : Nat :=
  if h : lo < hi then
    let mid := (lo + hi) / 2
    if starts[mid] ≤ offset then countUpTo starts offset (mid + 1) hi hhi
    else countUpTo starts offset lo mid (by omega)
  else lo
termination_by hi - lo

/-- The position of an offset; an offset past the end stands for the end. -/
def locate (t : LineTable) (offset : Nat) : Position :=
  let o := min offset t.length
  let line := countUpTo t.starts o 0 t.starts.size (Nat.le_refl _)
  ⟨line, o - t.starts[line - 1]?.getD 0 + 1⟩

end LineTable

end ScriptAssembly
