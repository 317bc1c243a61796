import Cinematic.Bytes

/-!
# The tokens of a packed block

Between the trailer and its first byte, a packed block is a string of bits that spells
**tokens**. A token either carries bytes or copies some that were emitted before; data are
emitted from their last byte to their first, so "before" means at a higher address.

Each kind of token has short forms for common cases, told apart by their first two or three
bits. Which form a token takes is decided here, once, for the writer
(`Cinematic.Packing.Token.bits`); fields are written most significant bit first.

| form | fields | meaning |
|---|---|---|
| `00` | 3 bits of count, bytes | up to 8 bytes |
| `111` | 8 bits of count, bytes | 9 to 264 bytes |
| `01` | 8 bits of distance | copy of 2 bytes |
| `100` | 9 bits of distance | copy of 3 bytes |
| `101` | 10 bits of distance | copy of 4 bytes |
| `110` | 8 bits of count, 12 of distance | copy of up to 256 bytes |
-/

namespace Cinematic.Packing

/-- The low `count` bits of a number, most significant first. -/
def fieldBits : Nat → Nat → List Bool
  | 0, _ => []
  | count + 1, n => n.testBit count :: fieldBits count n

/-- The longest run of bytes that one token carries. -/
def maxRun : Nat := 264

/-- The longest copy. -/
def maxCopy : Nat := 256

/-- The largest distance of a copy. -/
def maxDistance : Nat := 4095

/-- One step of an expansion. -/
inductive Token where
  /-- Emits bytes, at least one and at most `Cinematic.Packing.maxRun`. -/
  | literals (bytes : List UInt8)
  /-- Emits bytes that were emitted `distance` bytes ago. -/
  | copy (count distance : Nat)
deriving Repr, DecidableEq

/-- The bits of a byte, most significant first. -/
def byteBits (b : UInt8) : List Bool := fieldBits 8 b.toNat

/-- **The written form of a token**, the shortest that holds it. -/
def Token.bits : Token → List Bool
  | .literals bytes =>
    (if bytes.length ≤ 8 then fieldBits 2 0b00 ++ fieldBits 3 (bytes.length - 1)
      else fieldBits 3 0b111 ++ fieldBits 8 (bytes.length - 9))
      ++ bytes.flatMap byteBits
  | .copy count distance =>
    if count = 2 then fieldBits 2 0b01 ++ fieldBits 8 distance
    else if count = 3 ∧ distance ≤ 0x1ff then fieldBits 3 0b100 ++ fieldBits 9 distance
    else if count = 4 ∧ distance ≤ 0x3ff then fieldBits 3 0b101 ++ fieldBits 10 distance
    else fieldBits 3 0b110 ++ fieldBits 8 (count - 1) ++ fieldBits 12 distance

end Cinematic.Packing
