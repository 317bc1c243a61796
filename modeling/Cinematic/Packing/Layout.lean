import Cinematic.Packing.Token

/-!
# The words of a packed block

A string of bits is stored in words of 32 bits. **Each word is read least significant bit
first, and words are read from the highest address down**, so that a block can be expanded in
the buffer that it was loaded into. The last three words are the trailer: from the top down
the number of unpacked bytes, a checksum, and the *chunk* with the first bits.

The number of bits need not be a multiple of 32. What is left over comes first and goes into
the chunk, below a marker bit that says where it ends; a chunk without any bits is the marker
alone. The checksum makes the exclusive or of itself, the chunk and all words zero.
-/

namespace Cinematic.Packing

/-- The number of bytes in the trailer. -/
def trailerSize : Nat := 12

/-- The number whose bits are given, least significant first. -/
def ofBits : List Bool → Nat
  | [] => 0
  | b :: rest => b.toNat + 2 * ofBits rest

/-- The first `n` words of a string of bits. -/
def words : Nat → List Bool → List UInt32
  | 0, _ => []
  | n + 1, bits => (ofBits (bits.take 32)).toUInt32 :: words n (bits.drop 32)

/-- The bits that do not fill a word, below their marker. -/
def chunkOf (bits : List Bool) : UInt32 :=
  (ofBits (bits.take (bits.length % 32) ++ [true])).toUInt32

/-- The full words that follow the chunk. -/
def wordsOf (bits : List Bool) : List UInt32 :=
  words (bits.length / 32) (bits.drop (bits.length % 32))

/-- **The packed block** whose bits are given and which announces `length` unpacked bytes. -/
def layout (bits : List Bool) (length : Nat) : Bytes :=
  let chunk := chunkOf bits
  let body := wordsOf bits
  let check := body.foldl (fun acc w => acc ^^^ w) chunk
  let stored := body.reverse ++ [chunk, check, length.toUInt32]
  (stored.flatMap fun w => Bytes.bigEndian 4 w.toNat).toArray

@[simp] theorem length_words (n : Nat) (bits : List Bool) : (words n bits).length = n := by
  induction n generalizing bits with
  | zero => rfl
  | succ n ih => simp [words, ih]

end Cinematic.Packing
