import Cinematic.Bytecode.Decode
import Cinematic.Bytecode.Format

/-!
# Listing a segment

A segment is listed by a sweep from its first byte: each instruction starts where the one
before it ended, bytes that are no instruction are shown as such, and **the sweep ends at the
end of the segment or at an instruction that does not fit**, which gets one last line with the
reason. Data among the code are listed as the instructions that they happen to spell.

The sweep itself (`Cinematic.Bytecode.sweep`) gives instructions with their positions; how they
are shown is a matter of `Cinematic.Bytecode.listing` alone.
-/

namespace Cinematic.Bytecode

open Text (Span Palette)

/-- An instruction and where it stands. -/
structure Placed where
  /-- The position of its first byte. -/
  pos : Nat
  /-- The instruction. -/
  instruction : Instruction
deriving Repr, DecidableEq

/-- The instructions of a segment, and what stopped the sweep before its end. -/
structure Sweep where
  /-- The instructions in the order in which they stand. -/
  code : Array Placed
  /-- The position of the instruction that does not fit, and the read that failed. -/
  failure : Option (Nat × ReadError)
deriving Repr, DecidableEq

/-- Sweeps from a cursor on and appends to the instructions found so far. Every instruction takes
at least one byte, so a fuel of as many steps as there are bytes is enough. -/
def sweepOn : Nat → Cursor → Array Placed → Sweep
  | 0, _, found => ⟨found, none⟩
  | fuel + 1, c, found =>
    if c.isAtEnd then ⟨found, none⟩
    else
      match Instruction.decode c with
      | .ok i rest => sweepOn fuel rest (found.push ⟨c.pos, i⟩)
      | .error e _ => ⟨found, some (c.pos, e)⟩

/-- The instructions of a segment from its first byte on. -/
def sweep (segment : Bytes) : Sweep :=
  sweepOn (segment.size + 1) (Cursor.start segment) #[]

/-- The margin of a listing line: the offset of a position. -/
def margin (p : Palette) (pos : Nat) : String :=
  "  " ++ p.paint .offset (Text.hex 4 pos.toUInt16.toNat) ++ "  "

/-- The line of an instruction. -/
def Placed.line (p : Palette) (i : Placed) : String :=
  margin p i.pos ++ Text.trimEnd (i.instruction.render p)

/-- The line of an instruction that does not fit. -/
def failureLine (p : Palette) (pos : Nat) (e : ReadError) : String :=
  margin p pos ++ p.paint .error ("; " ++ e.message)

/-- What stands above the code. -/
def listingHeader (segment : Bytes) : List String :=
  ["[segment]", "size = " ++ toString segment.size, "", "[code]"]

/-- The lines of a segment's code. -/
def codeLines (p : Palette) (segment : Bytes) : List String :=
  let s := sweep segment
  s.code.toList.map (Placed.line p)
    ++ (match s.failure with
      | none => []
      | some (pos, e) => [failureLine p pos e])

/-- **The listing of a segment.** -/
def listing (p : Palette) (segment : Bytes) : String :=
  Text.unlines (listingHeader segment ++ codeLines p segment)

end Cinematic.Bytecode
