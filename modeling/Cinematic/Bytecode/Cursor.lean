import Cinematic.Bytes
import Cinematic.Text.Pad

/-!
# Reading a bytecode segment

A **cursor** is a position in a segment. The position is a natural number, so it may stand
anywhere, also past the end, and only reading asks whether there is something to read. What
bytecode can see of it is its **offset**, the position cut to sixteen bits: in a segment of
more than 65536 bytes the two differ, and a reader that runs straight on keeps its position.

A read of one, two or four bytes either succeeds and moves the cursor past what was read, or
fails and leaves it where it was. Readers are composed in `Cinematic.Bytecode.Reader`, whose
failures keep the cursor of the field that did not fit.
-/

namespace Cinematic.Bytecode

/-- A position in a segment. -/
structure Cursor where
  /-- The segment. -/
  segment : Bytes
  /-- How many bytes lie before the cursor. -/
  pos : Nat
deriving Repr, DecidableEq

/-- What is known of a read that did not fit. -/
structure ReadError where
  /-- The offset of the read. -/
  offset : UInt16
  /-- How many bytes it asked for. -/
  width : Nat
  /-- The length of the segment. -/
  size : Nat
deriving Repr, DecidableEq

/-- The wording of a failed read. -/
def ReadError.message (e : ReadError) : String :=
  "read of " ++ toString e.width ++ " byte(s) at " ++ Text.hexMarked 4 e.offset.toNat
    ++ " runs past end of segment (" ++ toString e.size ++ " bytes)"

namespace Cursor

/-- The start of a segment. -/
def start (segment : Bytes) : Cursor := ⟨segment, 0⟩

/-- The position as sixteen bits. -/
def offset (c : Cursor) : UInt16 := c.pos.toUInt16

/-- The cursor moved to an offset. -/
def seek (c : Cursor) (offset : UInt16) : Cursor := { c with pos := offset.toNat }

/-- Whether no byte is left to read. -/
def isAtEnd (c : Cursor) : Bool := c.segment.size ≤ c.pos

end Cursor

/-- A computation that reads a segment from a cursor on. -/
abbrev Reader := EStateM ReadError Cursor

namespace Reader

/-- The number spelled by the next `width` bytes. -/
def take (width : Nat) : Reader Nat := fun c =>
  if c.pos + width ≤ c.segment.size then
    .ok (c.segment.wordAt c.pos width) { c with pos := c.pos + width }
  else
    .error ⟨c.offset, width, c.segment.size⟩ c

/-- The next byte. -/
def byte : Reader UInt8 := do return (← take 1).toUInt8

/-- The next two bytes. -/
def word : Reader UInt16 := do return (← take 2).toUInt16

/-- The next four bytes. -/
def long : Reader UInt32 := do return (← take 4).toUInt32

theorem take_of_le {c : Cursor} {width : Nat} (h : c.pos + width ≤ c.segment.size) :
    take width c = .ok (c.segment.wordAt c.pos width) { c with pos := c.pos + width } := by
  simp [take, h]

theorem take_of_lt {c : Cursor} {width : Nat} (h : c.segment.size < c.pos + width) :
    take width c = .error ⟨c.offset, width, c.segment.size⟩ c := by
  have : ¬ c.pos + width ≤ c.segment.size := by omega
  simp [take, this]

end Reader

end Cinematic.Bytecode
