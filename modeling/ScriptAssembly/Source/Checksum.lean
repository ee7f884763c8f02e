/-
The XXH64 checksum.

Four lanes of 64 bits take up the bytes in stripes of 32. What is left over,
fewer than 32 bytes, is mixed in by words of eight bytes, then at most one of
four, then single bytes, and a last scramble spreads every bit over the word.
Words are read with the least significant byte first, and all arithmetic is
modulo 2^64.
-/
namespace ScriptAssembly

/-! ## Consecutive pieces of a list -/

/-- Consecutive pieces of `n` elements; a size of zero is read as one. -/
def chunks {α : Type} (n : Nat) : List α → List (List α)
  | [] => []
  | x :: xs => (x :: xs.take (n - 1)) :: chunks n (xs.drop (n - 1))
termination_by xs => xs.length
decreasing_by simp only [List.length_drop, List.length_cons]; omega

theorem chunks_flatten {α : Type} (n : Nat) (xs : List α) : (chunks n xs).flatten = xs := by
  fun_induction chunks n xs with
  | case1 => rfl
  | case2 x xs ih => simp [ih]

/-! ## Lanes -/

namespace Checksum

def prime1 : UInt64 := 0x9e3779b185ebca87
def prime2 : UInt64 := 0xc2b2ae3d27d4eb4f
def prime3 : UInt64 := 0x165667b19e3779f9
def prime4 : UInt64 := 0x85ebca77c2b2ae63
def prime5 : UInt64 := 0x27d4eb2f165667c5

/-- The word turned left by `r` bits, for `r` from 1 to 63. -/
def rotate (w r : UInt64) : UInt64 := (w <<< r) ||| (w >>> (64 - r))

/-- The word whose bytes are given, the least significant one first. -/
def word (bytes : List UInt8) : UInt64 :=
  bytes.foldr (fun b w => (w <<< 8) ||| b.toUInt64) 0

/-- A lane that has taken up one more word. -/
def absorb (lane w : UInt64) : UInt64 := rotate (lane + w * prime2) 31 * prime1

/-- The four lanes. -/
structure Lanes where
  a : UInt64
  b : UInt64
  c : UInt64
  d : UInt64

namespace Lanes

def start (seed : UInt64) : Lanes :=
  ⟨seed + prime1 + prime2, seed + prime2, seed, seed - prime1⟩

/-- The lanes after a stripe of 32 bytes, eight to each. -/
def stripe (l : Lanes) (bytes : List UInt8) : Lanes :=
  ⟨absorb l.a (word (bytes.take 8)), absorb l.b (word ((bytes.drop 8).take 8)),
    absorb l.c (word ((bytes.drop 16).take 8)), absorb l.d (word ((bytes.drop 24).take 8))⟩

/-- Folds a lane into the joint word. -/
def merge (h lane : UInt64) : UInt64 := (h ^^^ absorb 0 lane) * prime1 + prime4

/-- The four lanes in one word. -/
def join (l : Lanes) : UInt64 :=
  [l.a, l.b, l.c, l.d].foldl merge (rotate l.a 1 + rotate l.b 7 + rotate l.c 12 + rotate l.d 18)

end Lanes

def mixWord (h w : UInt64) : UInt64 := rotate (h ^^^ absorb 0 w) 27 * prime1 + prime4
def mixHalf (h w : UInt64) : UInt64 := rotate (h ^^^ w * prime1) 23 * prime2 + prime3
def mixByte (h : UInt64) (b : UInt8) : UInt64 := rotate (h ^^^ b.toUInt64 * prime5) 11 * prime1

/-- Mixes in fewer than eight bytes: four together if there are so many, the others one by one. -/
def mixShort (h : UInt64) (bytes : List UInt8) : UInt64 :=
  if 4 ≤ bytes.length then (bytes.drop 4).foldl mixByte (mixHalf h (word (bytes.take 4)))
  else bytes.foldl mixByte h

/-- Mixes in a piece of at most eight bytes. -/
def mixPiece (h : UInt64) (bytes : List UInt8) : UInt64 :=
  if bytes.length = 8 then mixWord h (word bytes) else mixShort h bytes

/-- Spreads every bit over the whole word. -/
def scramble (h : UInt64) : UInt64 :=
  let h := (h ^^^ (h >>> 33)) * prime2
  let h := (h ^^^ (h >>> 29)) * prime3
  h ^^^ (h >>> 32)

/-- The checksum of `bytes` under `seed`. -/
def ofBytes (seed : UInt64) (bytes : List UInt8) : UInt64 :=
  let striped := bytes.length / 32 * 32
  let h :=
    if striped = 0 then seed + prime5
    else ((chunks 32 (bytes.take striped)).foldl Lanes.stripe (Lanes.start seed)).join
  let h := h + bytes.length.toUInt64
  scramble ((chunks 8 (bytes.drop striped)).foldl mixPiece h)

/-- The checksum of a text, over its UTF-8 bytes and under seed zero. -/
def ofText (text : String) : UInt64 := ofBytes 0 text.toUTF8.data.toList

end Checksum

end ScriptAssembly
