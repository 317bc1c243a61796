/-!
# Byte strings

Segments, banks and packed blocks are strings of bytes, and every number in them is
**big-endian**: its most significant byte comes first. This module has the two directions of
that rule, for numbers of any width, and the cutting of a string into parts.

Reading beside the end of a string gives zero bytes. No caller does so without having asked
first, but it keeps the functions total and their lemmas short.
-/

namespace Cinematic

/-- A string of bytes. -/
abbrev Bytes := Array UInt8

namespace Bytes

/-- The byte at a position. -/
def byteAt (b : Bytes) (i : Nat) : UInt8 := b.getD i 0

/-- The number that the `width` bytes from position `i` on spell, most significant first. -/
def wordAt (b : Bytes) (i : Nat) : Nat → Nat
  | 0 => 0
  | width + 1 => wordAt b i width * 256 + (b.byteAt (i + width)).toNat

/-- The last `width` base-256 digits of a number, most significant first. -/
def bigEndian : Nat → Nat → List UInt8
  | 0, _ => []
  | width + 1, n => bigEndian width (n / 256) ++ [UInt8.ofNat n]

/-- The bytes from position `i` on, at most `count` of them. -/
def slice (b : Bytes) (i count : Nat) : Bytes := b.extract i (i + count)

/-- A string cut or filled up with zeros to a length. -/
def resize (b : Bytes) (length : Nat) : Bytes :=
  b.extract 0 length ++ Array.replicate (length - b.size) 0

theorem wordAt_zero (b : Bytes) (i : Nat) : wordAt b i 0 = 0 := rfl

theorem wordAt_succ (b : Bytes) (i width : Nat) :
    wordAt b i (width + 1) = wordAt b i width * 256 + (b.byteAt (i + width)).toNat := rfl

theorem byteAt_eq_getElem {b : Bytes} {i : Nat} (h : i < b.size) : b.byteAt i = b[i] := by
  simp [byteAt, h]

@[simp] theorem length_bigEndian (width n : Nat) : (bigEndian width n).length = width := by
  induction width generalizing n with
  | zero => rfl
  | succ width ih => simp [bigEndian, ih]

@[simp] theorem size_resize (b : Bytes) (length : Nat) : (b.resize length).size = length := by
  simp only [resize, Array.size_append, Array.size_extract, Array.size_replicate]
  omega

end Bytes

end Cinematic
