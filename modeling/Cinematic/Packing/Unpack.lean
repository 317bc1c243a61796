import Cinematic.Packing.Error
import Cinematic.Packing.Layout

/-!
# Expanding a packed block

Expansion runs backwards: words are taken from the end of the block and bytes are written from
the end of the data. Both may share one buffer. The writer then follows the reader downwards,
and what keeps it from destroying words that are still to be read is one comparison
(`Cinematic.Packing.Unpacker.place`): **a byte is written only at or above the unread part of
the block**, and a block for which that is not enough is refused.

Expansion is written as a computation that keeps its state also when it fails, since in place
the buffer is what the caller is left with. `Cinematic.Packing.unpackInPlace` expands in the
block's own buffer; `Cinematic.Packing.unpack` puts the data above a copy of the block, where
they cannot meet.
-/

namespace Cinematic.Packing

/-- The state of an expansion. -/
structure Unpacker where
  /-- The block below `source`, and the data from `target` on. -/
  buffer : Bytes
  /-- One past the next unread byte of the block. -/
  source : Nat
  /-- One past the next byte to write. -/
  target : Nat
  /-- The first byte of the data. -/
  start : Nat
  /-- How many bytes are still to be written. -/
  remaining : Nat
  /-- The exclusive or of all words read, which ends at zero. -/
  check : UInt32
  /-- The bits at hand, below a marker bit. -/
  chunk : UInt32
deriving Repr, DecidableEq

/-- A computation on the state of an expansion. -/
abbrev Unpacking := EStateM UnpackError Unpacker

namespace Unpacker

/-- The next word of the block, from the top down. -/
def fetch : Unpacking UInt32 := fun u =>
  if 4 ≤ u.source then
    .ok (u.buffer.wordAt (u.source - 4) 4).toUInt32 { u with source := u.source - 4 }
  else .error .sourceExhausted u

/-- **The next bit.** When only the marker is left in the chunk, the next word takes its place, with
its first bit spent and a marker at the top. -/
def bit : Unpacking Bool := fun u =>
  let spent := u.chunk >>> 1
  if spent = 0 then
    match fetch u with
    | .ok word u =>
      .ok (word &&& 1 = 1) { u with check := u.check ^^^ word, chunk := word >>> 1 ||| 0x80000000 }
    | .error e u => .error e u
  else .ok (u.chunk &&& 1 = 1) { u with chunk := spent }

/-- The number that `count` bits spell below the ones read before. -/
def fieldOn : Nat → Nat → Unpacking Nat
  | 0, read => pure read
  | count + 1, read => do
    let b ← bit
    fieldOn count (2 * read + b.toNat)

/-- The number that the next `count` bits spell, most significant first. -/
def field (count : Nat) : Unpacking Nat := fieldOn count 0

/-- **Where the next byte goes.** There must be one left to write, and the place must lie neither in
the unread part of the block nor below the data. -/
def place : Unpacking Nat := fun u =>
  if u.remaining ≠ 0 ∧ 1 ≤ u.target ∧ u.source ≤ u.target - 1 ∧ u.start ≤ u.target - 1 then
    .ok (u.target - 1) u
  else .error .outputOverrun u

/-- Writes the next byte to the place found for it. -/
def write (pos : Nat) (b : UInt8) : Unpacking Unit := fun u =>
  .ok () { u with
    buffer := u.buffer.setIfInBounds pos b, target := pos, remaining := u.remaining - 1 }

/-- Writes bytes that the block carries. -/
def literals : Nat → Unpacking Unit
  | 0 => pure ()
  | count + 1 => do
    let b ← field 8
    let pos ← place
    write pos b.toUInt8
    literals count

/-- The byte `distance` places above a position; it must have been written. -/
def earlier (pos distance : Nat) : Unpacking UInt8 := fun u =>
  if distance = 0 ∨ u.buffer.size ≤ pos + distance then
    .error (.badReference (pos - u.start) distance) u
  else .ok (u.buffer.byteAt (pos + distance)) u

/-- Writes bytes that were written before. -/
def copy (distance : Nat) : Nat → Unpacking Unit
  | 0 => pure ()
  | count + 1 => do
    let pos ← place
    let b ← earlier pos distance
    write pos b
    copy distance count

/-- Reads one token and carries it out. -/
def token : Unpacking Unit := do
  if ← bit then
    if ← bit then
      if ← bit then
        let count ← field 8
        literals (count + 9)
      else
        let count ← field 8
        let distance ← field 12
        copy distance (count + 1)
    else
      if ← bit then
        let distance ← field 10
        copy distance 4
      else
        let distance ← field 9
        copy distance 3
  else
    if ← bit then
      let distance ← field 8
      copy distance 2
    else
      let count ← field 3
      literals (count + 1)

/-- Carries out tokens until nothing is left to write, but no more than the given number. A token
writes at least one byte, so as many tokens as bytes are enough. -/
def tokens : Nat → Unpacking Unit
  | 0 => pure ()
  | fuel + 1 => do
    if (← get).remaining = 0 then pure ()
    else
      token
      tokens fuel

/-- Reads the trailer. The data fill the buffer from `start` on. -/
def trailer : Unpacking Unit := do
  let length ← fetch
  let check ← fetch
  let chunk ← fetch
  let u ← get
  if length = 0 then throw .alreadyUnpacked
  else if length.toNat ≠ u.target - u.start then
    throw (.lengthMismatch length (u.target - u.start))
  else set { u with remaining := length.toNat, check := check ^^^ chunk, chunk := chunk }

/-- The words read must have cancelled out. -/
def checkSum : Unpacking Unit := do
  let check := (← get).check
  if check = 0 then pure () else throw (.checksum check)

/-- A whole expansion. -/
def run : Unpacking Unit := do
  trailer
  let length := (← get).remaining
  tokens length
  checkSum

end Unpacker

/-- Expands a block that fills the first `packed` bytes of a buffer into the bytes from `start` on,
and gives back the buffer in any case. -/
def expand (buffer : Bytes) (packed start : Nat) : Bytes × Except UnpackError Unit :=
  match Unpacker.run ⟨buffer, packed, buffer.size, start, 0, 0, 0⟩ with
  | .ok _ u => (u.buffer, .ok ())
  | .error e u => (u.buffer, .error e)

/-- **Expands a block in its own buffer.** The block fills the first `packed` bytes, and its data will
fill the first `unpacked` ones; the bytes beyond are not touched. -/
def unpackInPlace (buffer : Bytes) (packed unpacked : Nat) : Bytes × Except UnpackError Unit :=
  if packed < trailerSize then (buffer, .error (.truncated packed))
  else if buffer.size < unpacked then (buffer, .error (.bufferTooSmall buffer.size unpacked))
  else if unpacked < packed then (buffer, .error (.oversized packed unpacked))
  else
    let (region, result) := expand (buffer.extract 0 unpacked) packed 0
    (region ++ buffer.extract unpacked buffer.size, result)

/-- **The data of a block**, of which `unpacked` bytes are expected. A block of just that length is
stored as it is. -/
def unpack (block : Bytes) (unpacked : Nat) : Except UnpackError Bytes :=
  if block.size = unpacked then .ok block
  else if block.size < trailerSize then .error (.truncated block.size)
  else if unpacked < block.size then .error (.oversized block.size unpacked)
  else
    match expand (block ++ Array.replicate unpacked 0) block.size block.size with
    | (buffer, .ok ()) => .ok (buffer.extract block.size buffer.size)
    | (_, .error e) => .error e

end Cinematic.Packing
