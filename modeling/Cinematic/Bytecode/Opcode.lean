/-!
# Opcodes

Every byte is an opcode, and **the opcode remembers its byte**. The first twenty-seven bytes
are the named instructions; the bytes up to `0x3f` mean nothing; from there to `0x7f` a byte
draws polygons and says in its low bits how the operands are given; and the bytes with the
high bit set draw polygons whose offset begins with the other seven bits.
-/

namespace Cinematic.Bytecode

/-- What the first byte of an instruction asks for. -/
inductive Opcode where
  | movi | movr | addr | addi | call | ret | yield | jump | init | djnz | cjmp | palette | reset
  | page | fill | copy | blit | kill | print | subr | andi | iori | shli | shri | sound | loadres
  | music
  /-- A byte without a meaning. -/
  | invalid (code : UInt8)
  /-- Polygons with operands given as the low bits say. -/
  | polyLong (code : UInt8)
  /-- Polygons with byte coordinates. -/
  | polyShort (code : UInt8)
deriving Repr, DecidableEq

namespace Opcode

/-- The opcode that a byte stands for. -/
def ofByte (b : UInt8) : Opcode :=
  match b with
  | 0x00 => movi
  | 0x01 => movr
  | 0x02 => addr
  | 0x03 => addi
  | 0x04 => call
  | 0x05 => ret
  | 0x06 => yield
  | 0x07 => jump
  | 0x08 => init
  | 0x09 => djnz
  | 0x0a => cjmp
  | 0x0b => palette
  | 0x0c => reset
  | 0x0d => page
  | 0x0e => fill
  | 0x0f => copy
  | 0x10 => blit
  | 0x11 => kill
  | 0x12 => print
  | 0x13 => subr
  | 0x14 => andi
  | 0x15 => iori
  | 0x16 => shli
  | 0x17 => shri
  | 0x18 => sound
  | 0x19 => loadres
  | 0x1a => music
  | _ => if b < 0x40 then invalid b else if b < 0x80 then polyLong b else polyShort b

/-- The byte of an opcode. -/
def toByte : Opcode → UInt8
  | movi => 0x00
  | movr => 0x01
  | addr => 0x02
  | addi => 0x03
  | call => 0x04
  | ret => 0x05
  | yield => 0x06
  | jump => 0x07
  | init => 0x08
  | djnz => 0x09
  | cjmp => 0x0a
  | palette => 0x0b
  | reset => 0x0c
  | page => 0x0d
  | fill => 0x0e
  | copy => 0x0f
  | blit => 0x10
  | kill => 0x11
  | print => 0x12
  | subr => 0x13
  | andi => 0x14
  | iori => 0x15
  | shli => 0x16
  | shri => 0x17
  | sound => 0x18
  | loadres => 0x19
  | music => 0x1a
  | invalid code | polyLong code | polyShort code => code

/-- The word by which listings show an opcode. -/
def mnemonic : Opcode → String
  | movi => "movi"
  | movr => "movr"
  | addr => "addr"
  | addi => "addi"
  | call => "call"
  | ret => "ret"
  | yield => "yield"
  | jump => "jump"
  | init => "init"
  | djnz => "djnz"
  | cjmp => "cjmp"
  | palette => "palette"
  | reset => "reset"
  | page => "page"
  | fill => "fill"
  | copy => "copy"
  | blit => "blit"
  | kill => "kill"
  | print => "print"
  | subr => "subr"
  | andi => "andi"
  | iori => "iori"
  | shli => "shli"
  | shri => "shri"
  | sound => "sound"
  | loadres => "loadres"
  | music => "music"
  | invalid _ => "invalid"
  | polyLong _ => "poly1"
  | polyShort _ => "poly2"

/-- Whether the opcode ends the slice of the thread that executes it. -/
def yields : Opcode → Bool
  | yield | kill => true
  | _ => false

/-- **No byte is lost by reading it as an opcode.** -/
theorem toByte_ofByte (b : UInt8) : (ofByte b).toByte = b := by
  unfold ofByte
  split <;> first
    | rfl
    | (split <;> first | rfl | (split <;> rfl))

end Opcode

end Cinematic.Bytecode
