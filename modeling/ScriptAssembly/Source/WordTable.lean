import ScriptAssembly.Source.Basic
/-
Line tables in words.

A `LineTable` counts in natural numbers and reads the start of no line as zero.
A table in memory keeps offsets and columns in words of 32 bits: a sum may be too
large for a word, a difference may be below zero, and a line may not be there.
Here each sum, each difference and each access is checked, and a computation
fails where a check does. Numbers of bytes and of lines are made words by
dropping what is too high for one, and that goes unnoticed.

Emission takes its positions from a table in words whose sums are not checked
(`wrapped`, `position`): what is too high is dropped there as well. Where no
check fails the two are the same.
-/
namespace ScriptAssembly

namespace Word

/-- Why a computation on words has no result. -/
inductive Breach
  | sumTooLarge
  | differenceBelowZero
  | noSuchLine
  deriving DecidableEq, Repr

/-- The sum of two words, unless it is too large for a word. -/
def add (m n : UInt32) : Except Breach UInt32 :=
  if m.toNat + n.toNat < UInt32.size then .ok (m + n) else .error .sumTooLarge

/-- The difference of two words, unless it is below zero. -/
def sub (m n : UInt32) : Except Breach UInt32 := if n ≤ m then .ok (m - n) else .error .differenceBelowZero

/-- The number in front of a number of lines, unless there are none. -/
def predecessor (n : Nat) : Except Breach Nat := if 1 ≤ n then .ok (n - 1) else .error .differenceBelowZero

end Word

/-- Where the lines of a text start, and how many bytes it has, in words. -/
structure WordTable where
  /-- Offset of the first byte of each line. -/
  starts : Array UInt32
  length : UInt32
  deriving DecidableEq, Repr

namespace WordTable

/-- The table of a text: one line starts at its beginning, and one behind each newline. -/
def ofBytes (bytes : List UInt8) : Except Word.Breach WordTable := do
  let newlines := bytes.zipIdx.filter (·.1 == LineTable.newline)
  let starts ← newlines.mapM fun p => Word.add p.2.toUInt32 1
  return ⟨(0 :: starts).toArray, bytes.length.toUInt32⟩

def ofText (text : String) : Except Word.Breach WordTable := ofBytes text.toUTF8.data.toList

/-- Number of lines. -/
def lineCount (t : WordTable) : Nat := t.starts.size

/-- How many lines start up to an offset, found by binary search. -/
def countUpTo (t : WordTable) (offset : UInt32) : Nat :=
  LineTable.countUpTo (t.starts.map UInt32.toNat) offset.toNat 0 _ (Nat.le_refl _)

/-- Where a line starts, the lines counted from zero. -/
def start (t : WordTable) (line : Nat) : Except Word.Breach UInt32 :=
  match t.starts[line]? with
  | some start => .ok start
  | none => .error .noSuchLine

/-- The position of an offset; an offset past the end stands for the end. -/
def locate (t : WordTable) (offset : UInt32) : Except Word.Breach Position := do
  let offset := min offset t.length
  let line ← Word.predecessor (t.countUpTo offset)
  let column ← Word.sub offset (← t.start line)
  return ⟨(← Word.add line.toUInt32 1).toNat, (← Word.add column 1).toNat⟩

/-! ## Without checks -/

/-- The table of a text, its sums unchecked. -/
def wrapped (text : String) : WordTable :=
  let bytes := text.toUTF8.data.toList
  let newlines := bytes.zipIdx.filter (·.1 == LineTable.newline)
  ⟨(0 :: newlines.map fun p => p.2.toUInt32 + 1).toArray, bytes.length.toUInt32⟩

/-- The position of an offset, its sums unchecked; an offset past the end stands for the end. -/
def position (t : WordTable) (offset : Nat) : Position :=
  let offset := (min offset t.length.toNat).toUInt32
  let line := t.countUpTo offset - 1
  ⟨(line.toUInt32 + 1).toNat, (offset - t.starts[line]?.getD 0 + 1).toNat⟩

end WordTable

/-- The line table of a source file. -/
def SourceFile.lines (f : SourceFile) : WordTable := WordTable.wrapped f.text

end ScriptAssembly
