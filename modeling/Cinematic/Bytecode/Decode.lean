import Cinematic.Bytecode.Cursor
import Cinematic.Bytecode.Instruction

/-!
# Decoding instructions

An instruction is read in one go: its opcode byte, then its operands in the order in which they
are stored. How many bytes that takes depends on the opcode alone, with two exceptions whose
second byte or low bits say what follows – the conditional jump and the long form of drawing
polygons. **Reading fails at the first field that does not fit**, and the cursor then stands
on that field.

Drawings name their shapes by an offset in *words* of two bytes, so the stored number is doubled
and wraps around. The short form cannot draw below row 199: what exceeds it is added to the
horizontal coordinate.
-/

namespace Cinematic.Bytecode

namespace Instruction

/-- The operands of a computation with a word. -/
def decodeImmediate (op : ImmediateOp) : Reader Instruction := do
  let dst ← Reader.byte
  let imm ← Reader.word
  return .immediate op dst imm

/-- The operands of a computation with another register. -/
def decodeRegister (op : RegisterOp) : Reader Instruction := do
  let dst ← Reader.byte
  let src ← Reader.byte
  return .register op dst src

/-- **What a conditional jump compares with.** The variant's high bit announces a register and wins
over the next one, which announces a word; without either, one byte follows. -/
def decodeComparand (variant : UInt8) : Reader Comparand :=
  if variant &&& 0x80 ≠ 0 then do return .reg (← Reader.byte)
  else if variant &&& 0x40 ≠ 0 then do return .word (← Reader.word)
  else do return .byte (← Reader.byte)

/-- The operands of a conditional jump. -/
def decodeCjmp : Reader Instruction := do
  let variant ← Reader.byte
  let reg ← Reader.byte
  let operand ← decodeComparand variant
  let target ← Reader.word
  return .cjmp (.ofBits variant) reg operand target

/-- The horizontal coordinate of a long drawing: a byte, to which 256 may be added, or a register,
or a signed word. -/
def decodeLongX (code : UInt8) : Reader Coordinate :=
  if code &&& 0x20 ≠ 0 then do
    let low := (← Reader.byte).toNat
    return .imm (Int16.ofNat (if code &&& 0x10 ≠ 0 then low + 0x100 else low))
  else if code &&& 0x10 ≠ 0 then do return .reg (← Reader.byte)
  else do return .imm (← Reader.word).toInt16

/-- The vertical coordinate of a long drawing: a byte, a register or a signed word. -/
def decodeLongY (code : UInt8) : Reader Coordinate :=
  if code &&& 0x08 ≠ 0 then do return .imm (Int16.ofNat (← Reader.byte).toNat)
  else if code &&& 0x04 ≠ 0 then do return .reg (← Reader.byte)
  else do return .imm (← Reader.word).toInt16

/-- The magnification of a long drawing, and the set that its shapes come from. -/
def decodeLongZoom (code : UInt8) : Reader (Zoom × PolygonSet) :=
  match code &&& 0x03 with
  | 3 => return (Zoom.native, .characters)
  | 2 => do return (.imm (← Reader.byte).toUInt16, .cinematic)
  | 1 => do return (.reg (← Reader.byte), .cinematic)
  | _ => return (Zoom.native, .cinematic)

/-- The operands of a long drawing. -/
def decodePolyLong (code : UInt8) : Reader Instruction := do
  let offset ← Reader.word
  let x ← decodeLongX code
  let y ← decodeLongY code
  let (zoom, shapes) ← decodeLongZoom code
  return .poly code (offset * 2) x y zoom shapes

/-- The lowest row that a short drawing can stand on. -/
def lastShortRow : Nat := 199

/-- The operands of a short drawing. -/
def decodePolyShort (code : UInt8) : Reader Instruction := do
  let low ← Reader.byte
  let x ← Reader.byte
  let y ← Reader.byte
  let offset := (code.toUInt16 <<< 8 ||| low.toUInt16) * 2
  let excess := y.toNat - lastShortRow
  return .poly code offset (.imm (Int16.ofNat (x.toNat + excess)))
    (.imm (Int16.ofNat (min y.toNat lastShortRow))) Zoom.native .cinematic

/-- The operands that follow an opcode. -/
def decodeOperands : Opcode → Reader Instruction
  | .movi => decodeImmediate .mov
  | .movr => decodeRegister .mov
  | .addr => decodeRegister .add
  | .addi => decodeImmediate .add
  | .call => do return .call (← Reader.word)
  | .ret => return .ret
  | .yield => return .yield
  | .jump => do return .jump (← Reader.word)
  | .init => do
    let thread ← Reader.byte
    let target ← Reader.word
    return .init thread target
  | .djnz => do
    let reg ← Reader.byte
    let target ← Reader.word
    return .djnz reg target
  | .cjmp => decodeCjmp
  | .palette => do return .palette (← Reader.word)
  | .reset => do
    let first ← Reader.byte
    let last ← Reader.byte
    let mode ← Reader.byte
    return .reset first last (.ofByte mode)
  | .page => do return .page (← Reader.byte)
  | .fill => do
    let page ← Reader.byte
    let color ← Reader.byte
    return .fill page color
  | .copy => do
    let src ← Reader.byte
    let dst ← Reader.byte
    return .copy src dst
  | .blit => do return .blit (← Reader.byte)
  | .kill => return .kill
  | .print => do
    let string ← Reader.word
    let x ← Reader.byte
    let y ← Reader.byte
    let color ← Reader.byte
    return .print string x y color
  | .subr => decodeRegister .sub
  | .andi => decodeImmediate .and
  | .iori => decodeImmediate .or
  | .shli => decodeImmediate .shl
  | .shri => decodeImmediate .shr
  | .sound => do
    let id ← Reader.word
    let frequency ← Reader.byte
    let volume ← Reader.byte
    let channel ← Reader.byte
    return .sound id frequency volume channel
  | .loadres => do return .loadres (← Reader.word)
  | .music => do
    let id ← Reader.word
    let delay ← Reader.word
    let position ← Reader.byte
    return .music id delay position
  | .invalid code => return .invalid code
  | .polyLong code => decodePolyLong code
  | .polyShort code => decodePolyShort code

/-- The instruction at the cursor. -/
def decode : Reader Instruction := do
  let code ← Reader.byte
  decodeOperands (Opcode.ofByte code)

end Instruction

end Cinematic.Bytecode
