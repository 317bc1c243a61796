import Cinematic.Bytecode.Instruction
import Cinematic.Register
import Cinematic.Text.Ink
import Cinematic.Text.Pad

/-!
# The text of an instruction

A listing shows an instruction as a mnemonic in seven places, a space and its operands, for
instance `movi    [00], 0x0005`. Registers stand between brackets, by name if they have one;
words are hexadecimal, bytes and shift widths decimal, and a place in the segment follows an
at sign. Instructions without operands end with the space, which listings trim away.
-/

namespace Cinematic.Bytecode

open Text (Span Role)

/-- A register between brackets. -/
def registerSpan (reg : UInt8) : Span :=
  .plain ("[" ++ (Register.name? reg).getD (Text.hex 2 reg.toNat) ++ "]")

/-- A word as a hexadecimal value. -/
def wordSpan (value : UInt16) : Span := .ink .value (Text.hexMarked 4 value.toNat)

/-- A natural number as a decimal value. -/
def decimalSpan (value : Nat) : Span := .ink .value (toString value)

/-- A place in the segment. -/
def targetSpan (target : UInt16) : Span := .ink .target ("@" ++ Text.hex 4 target.toNat)

/-- What separates two operands. -/
def comma : Span := .plain ", "

/-- A coordinate of a drawing. -/
def Coordinate.span : Coordinate → Span
  | .imm value => .ink .value (toString value.toInt)
  | .reg r => registerSpan r

/-- A magnification. -/
def Zoom.span : Zoom → Span
  | .imm value => decimalSpan value.toNat
  | .reg r => registerSpan r

/-- What a register is compared with. -/
def Comparand.span : Comparand → Span
  | .reg r => registerSpan r
  | .word value => wordSpan value
  | .byte value => decimalSpan value.toNat

/-- The word by which listings show a mode of `reset`. -/
def ResetMode.text : ResetMode → String
  | .resume => "resume"
  | .pause => "pause"
  | .halt => "halt"
  | .invalid code => "mode(" ++ toString code.toNat ++ ")"

/-- The second operand of a computation with a word: shift widths are counted, all else is a
pattern of bits. -/
def ImmediateOp.span (op : ImmediateOp) (imm : UInt16) : Span :=
  match op with
  | .shl | .shr => decimalSpan imm.toNat
  | _ => wordSpan imm

namespace Instruction

/-- The operands of an instruction. -/
def operandSpans : Instruction → List Span
  | immediate op dst imm => [registerSpan dst, comma, op.span imm]
  | register _ dst src => [registerSpan dst, comma, registerSpan src]
  | call target | jump target => [targetSpan target]
  | ret | yield | kill => []
  | init thread target => [decimalSpan thread.toNat, comma, targetSpan target]
  | djnz reg target => [registerSpan reg, comma, targetSpan target]
  | cjmp cond reg operand target =>
    [.plain (cond.mnemonic ++ " "), registerSpan reg, comma, operand.span, comma,
     targetSpan target]
  | palette selection => [decimalSpan (selection >>> 8).toNat]
  | reset first last mode =>
    [decimalSpan first.toNat, .plain "..", decimalSpan last.toNat, .plain (" " ++ mode.text)]
  | page number | blit number => [decimalSpan number.toNat]
  | fill number color => [decimalSpan number.toNat, comma, decimalSpan color.toNat]
  | copy src dst => [decimalSpan src.toNat, .plain " -> ", decimalSpan dst.toNat]
  | print string x y color =>
    [wordSpan string, comma, decimalSpan x.toNat, comma, decimalSpan y.toNat, comma,
     decimalSpan color.toNat]
  | sound id frequency volume channel =>
    [wordSpan id, .plain ", freq=", decimalSpan frequency.toNat, .plain ", vol=",
     decimalSpan volume.toNat, .plain ", chan=", decimalSpan channel.toNat]
  | loadres id => [wordSpan id]
  | music id delay position =>
    [wordSpan id, .plain ", delay=", decimalSpan delay.toNat, .plain ", pos=",
     decimalSpan position.toNat]
  | invalid code => [.ink .error (Text.hexMarked 2 code.toNat)]
  | poly _ offset x y zoom shapes =>
    [wordSpan offset, .plain ", x=", x.span, .plain ", y=", y.span, .plain ", zoom=", zoom.span]
      ++ (if shapes = .characters then [.plain " (characters)"] else [])

/-- An instruction as its mnemonic and its operands. -/
def spans (i : Instruction) : List Span :=
  .ink .mnemonic (Text.padEnd 7 i.opcode.mnemonic) :: .plain " " :: i.operandSpans

/-- The text of an instruction as a palette shows it. -/
def render (p : Text.Palette) (i : Instruction) : String := Span.renderAll p i.spans

end Instruction

end Cinematic.Bytecode
