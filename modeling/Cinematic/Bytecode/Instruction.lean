import Cinematic.Bytecode.Opcode

/-!
# Instructions

An instruction is an opcode with its operands. Operands that name a register are left as they
are: what a register holds is the machine's affair, and a listing shows the register itself.

The instructions that compute come in two shapes. Six take a register and a word, three take
two registers; each shape is one constructor here, with the computation beside it
(`Cinematic.Bytecode.ImmediateOp`, `Cinematic.Bytecode.RegisterOp`).
-/

namespace Cinematic.Bytecode

/-- The set of polygons that a drawing takes its shapes from. -/
inductive PolygonSet where
  /-- The polygons of the part's scenes. -/
  | cinematic
  /-- The polygons of characters and objects. -/
  | characters
deriving Repr, DecidableEq

/-- A coordinate of a drawing. -/
inductive Coordinate where
  /-- A number in the instruction. -/
  | imm (value : Int16)
  /-- The signed content of a register. -/
  | reg (reg : UInt8)
deriving Repr, DecidableEq

/-- A magnification, in sixty-fourths. -/
inductive Zoom where
  /-- A number in the instruction. -/
  | imm (value : UInt16)
  /-- The content of a register. -/
  | reg (reg : UInt8)
deriving Repr, DecidableEq

/-- The magnification at which shapes have the size they were drawn in. -/
def Zoom.native : Zoom := .imm 0x40

/-- What a register is compared with. -/
inductive Comparand where
  /-- The content of another register. -/
  | reg (reg : UInt8)
  /-- A word of the instruction. -/
  | word (value : UInt16)
  /-- A byte of the instruction, which is never negative. -/
  | byte (value : UInt8)
deriving Repr, DecidableEq

/-- How a conditional jump compares. -/
inductive Condition where
  | equal | notEqual | greater | greaterEqual | less | lessEqual
  /-- One of the two codes without a meaning. -/
  | undefined (code : UInt8)
deriving Repr, DecidableEq

namespace Condition

/-- The condition in the low three bits of a byte. -/
def ofBits (bits : UInt8) : Condition :=
  match bits &&& 0x07 with
  | 0 => equal
  | 1 => notEqual
  | 2 => greater
  | 3 => greaterEqual
  | 4 => less
  | 5 => lessEqual
  | code => undefined code

/-- The word by which listings show a condition. -/
def mnemonic : Condition → String
  | equal => "eq"
  | notEqual => "ne"
  | greater => "gt"
  | greaterEqual => "ge"
  | less => "lt"
  | lessEqual => "le"
  | undefined _ => "??"

/-- Whether the condition holds of two signed words; the undefined ones neither hold nor fail. -/
def holds? (c : Condition) (lhs rhs : Int16) : Option Bool :=
  match c with
  | equal => some (decide (lhs = rhs))
  | notEqual => some (decide (lhs ≠ rhs))
  | greater => some (decide (rhs < lhs))
  | greaterEqual => some (decide (rhs ≤ lhs))
  | less => some (decide (lhs < rhs))
  | lessEqual => some (decide (lhs ≤ rhs))
  | undefined _ => none

end Condition

/-- What `reset` does to the threads of its range. -/
inductive ResetMode where
  /-- Let them run again. -/
  | resume
  /-- Keep them from running. -/
  | pause
  /-- End them. -/
  | halt
  /-- A code without a meaning. -/
  | invalid (code : UInt8)
deriving Repr, DecidableEq

/-- The mode that a byte asks for. -/
def ResetMode.ofByte (b : UInt8) : ResetMode :=
  match b with
  | 0 => .resume
  | 1 => .pause
  | 2 => .halt
  | _ => .invalid b

/-- What is computed from a register and a word. -/
inductive ImmediateOp where
  | mov | add | and | or | shl | shr
deriving Repr, DecidableEq

/-- **The result of a computation with a word.** Sums wrap around, and a shift by sixteen places or
more leaves nothing. -/
def ImmediateOp.apply (op : ImmediateOp) (old imm : UInt16) : UInt16 :=
  match op with
  | mov => imm
  | add => old + imm
  | and => old &&& imm
  | or => old ||| imm
  | shl => if imm < 16 then old <<< imm else 0
  | shr => if imm < 16 then old >>> imm else 0

/-- The opcode that asks for a computation with a word. -/
def ImmediateOp.opcode : ImmediateOp → Opcode
  | mov => .movi
  | add => .addi
  | and => .andi
  | or => .iori
  | shl => .shli
  | shr => .shri

/-- What is computed from two registers. -/
inductive RegisterOp where
  | mov | add | sub
deriving Repr, DecidableEq

/-- The result of a computation with another register; sums and differences wrap around. -/
def RegisterOp.apply (op : RegisterOp) (old other : UInt16) : UInt16 :=
  match op with
  | mov => other
  | add => old + other
  | sub => old - other

/-- The opcode that asks for a computation with another register. -/
def RegisterOp.opcode : RegisterOp → Opcode
  | mov => .movr
  | add => .addr
  | sub => .subr

/-- An opcode with its operands. -/
inductive Instruction where
  /-- Computes a register from itself and a word. -/
  | immediate (op : ImmediateOp) (dst : UInt8) (imm : UInt16)
  /-- Computes a register from itself and another. -/
  | register (op : RegisterOp) (dst src : UInt8)
  /-- Goes on at the target and remembers where to return. -/
  | call (target : UInt16)
  /-- Returns to the place remembered last. -/
  | ret
  /-- Ends the slice. -/
  | yield
  /-- Goes on at the target. -/
  | jump (target : UInt16)
  /-- Lets a thread start at the target from the next pass on. -/
  | init (thread : UInt8) (target : UInt16)
  /-- Counts a register down and goes on at the target unless it has become zero. -/
  | djnz (reg : UInt8) (target : UInt16)
  /-- Goes on at the target if the condition holds. -/
  | cjmp (cond : Condition) (reg : UInt8) (operand : Comparand) (target : UInt16)
  /-- Selects the palette in the high byte. -/
  | palette (palette : UInt16)
  /-- Resumes, pauses or ends a range of threads from the next pass on. -/
  | reset (first last : UInt8) (mode : ResetMode)
  /-- Draws to another page from here on. -/
  | page (page : UInt8)
  /-- Fills a page with a colour. -/
  | fill (page color : UInt8)
  /-- Copies a page onto another. -/
  | copy (src dst : UInt8)
  /-- Shows a page. -/
  | blit (page : UInt8)
  /-- Ends the slice and the thread. -/
  | kill
  /-- Draws a text. -/
  | print (string : UInt16) (x y color : UInt8)
  /-- Plays a sound. -/
  | sound (id : UInt16) (frequency volume channel : UInt8)
  /-- Loads a resource or asks for a part. -/
  | loadres (id : UInt16)
  /-- Plays, adjusts or stops the music. -/
  | music (id delay : UInt16) (position : UInt8)
  /-- A byte that is no instruction. -/
  | invalid (code : UInt8)
  /-- Draws polygons; the opcode is kept because it says how the operands were given. -/
  | poly (code : UInt8) (offset : UInt16) (x y : Coordinate) (zoom : Zoom) (shapes : PolygonSet)
deriving Repr, DecidableEq

namespace Instruction

/-- The opcode of an instruction. -/
def opcode : Instruction → Opcode
  | immediate op _ _ => op.opcode
  | register op _ _ => op.opcode
  | call _ => .call
  | ret => .ret
  | yield => .yield
  | jump _ => .jump
  | init _ _ => .init
  | djnz _ _ => .djnz
  | cjmp _ _ _ _ => .cjmp
  | palette _ => .palette
  | reset _ _ _ => .reset
  | page _ => .page
  | fill _ _ => .fill
  | copy _ _ => .copy
  | blit _ => .blit
  | kill => .kill
  | print _ _ _ _ => .print
  | sound _ _ _ _ => .sound
  | loadres _ => .loadres
  | music _ _ _ => .music
  | invalid code => Opcode.ofByte code
  | poly code _ _ _ _ _ => Opcode.ofByte code

/-- Whether the instruction ends the slice of the thread that executes it. -/
def yields (i : Instruction) : Bool := i.opcode.yields

end Instruction

end Cinematic.Bytecode
