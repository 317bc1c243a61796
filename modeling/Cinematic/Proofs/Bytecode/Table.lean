import Mathlib.Algebra.GroupWithZero.Nat
import Cinematic.Bytecode.Instruction
import Cinematic.Proofs.Bytes

/-!
# The opcode table

How instructions are stored, said without reading any. An instruction is a sequence of **fields**,
each a byte or a word, and the table (`Cinematic.Bytecode.Encodes`) has one row for each way in
which an instruction can be stored: its first field is the opcode, and the others are its operands
in the order in which they stand. A row may stand for several opcodes only where the opcode itself
says how the operands are given, in the long and the short form of drawing.

The table answers one question before anything is read. **The first two bytes of an instruction tell
how wide its fields are** (`Cinematic.Bytecode.fieldWidths`), and the second of them is looked at by
the conditional jump only. No instruction takes more than eight bytes
(`Cinematic.Bytecode.sum_fieldWidths_le`).

Numbers in the table are natural numbers, which are cut to the width of their place at the end. That
the machine doubles a word and lets it wrap around is a matter of how it computes.
-/

namespace Cinematic.Bytecode

/-! ### Fields -/

/-- **A field of an instruction as it is stored.** -/
inductive Field where
  | byte (value : UInt8)
  | word (value : UInt16)
deriving Repr, DecidableEq

namespace Field

/-- How many bytes the field takes. -/
def width : Field → Nat
  | byte _ => 1
  | word _ => 2

/-- The number in the field. -/
def value : Field → Nat
  | byte value => value.toNat
  | word value => value.toNat

/-- The bytes of the field, most significant first. -/
def bytes (f : Field) : List UInt8 := Bytes.bigEndian f.width f.value

theorem value_lt (f : Field) : f.value < 256 ^ f.width := by
  cases f with
  | byte value => exact value.toNat_lt
  | word value => exact value.toNat_lt

@[simp] theorem length_bytes (f : Field) : f.bytes.length = f.width := Bytes.length_bigEndian _ _

end Field

/-- How many bytes some fields take. -/
def extent (fields : List Field) : Nat := (fields.map Field.width).sum

/-- The bytes of some fields, one behind the other. -/
def spelled (fields : List Field) : List UInt8 := fields.flatMap Field.bytes

@[simp] theorem extent_nil : extent [] = 0 := rfl

@[simp] theorem extent_cons (f : Field) (fields : List Field) :
    extent (f :: fields) = f.width + extent fields := rfl

@[simp] theorem extent_append (fields fields' : List Field) :
    extent (fields ++ fields') = extent fields + extent fields' := by
  simp [extent]

@[simp] theorem spelled_cons (f : Field) (fields : List Field) :
    spelled (f :: fields) = f.bytes ++ spelled fields := rfl

@[simp] theorem length_spelled (fields : List Field) : (spelled fields).length = extent fields := by
  induction fields with
  | nil => rfl
  | cons f fields ih => rw [spelled_cons, List.length_append, f.length_bytes, ih, extent_cons]

/-! ### Operands whose form depends on the instruction -/

/-- **What a conditional jump compares with**, as its variant says. The high bit announces a
register, whatever the next bit is. -/
inductive EncodesComparand (variant : UInt8) : Field → Comparand → Prop
  | reg (r : UInt8) (high : variant &&& 0x80 ≠ 0) : EncodesComparand variant (.byte r) (.reg r)
  | word (w : UInt16) (high : variant &&& 0x80 = 0) (next : variant &&& 0x40 ≠ 0) :
    EncodesComparand variant (.word w) (.word w)
  | byte (b : UInt8) (high : variant &&& 0x80 = 0) (next : variant &&& 0x40 = 0) :
    EncodesComparand variant (.byte b) (.byte b)

/-- **The horizontal coordinate of a long drawing**, as two bits of the opcode say. -/
inductive EncodesLongX (code : UInt8) : Field → Coordinate → Prop
  | near (b : UInt8) (short : code &&& 0x20 ≠ 0) (low : code &&& 0x10 = 0) :
    EncodesLongX code (.byte b) (.imm (.ofNat b.toNat))
  /-- To the right of the first 256 columns. -/
  | far (b : UInt8) (short : code &&& 0x20 ≠ 0) (low : code &&& 0x10 ≠ 0) :
    EncodesLongX code (.byte b) (.imm (.ofNat (b.toNat + 0x100)))
  | reg (r : UInt8) (short : code &&& 0x20 = 0) (low : code &&& 0x10 ≠ 0) :
    EncodesLongX code (.byte r) (.reg r)
  | word (w : UInt16) (short : code &&& 0x20 = 0) (low : code &&& 0x10 = 0) :
    EncodesLongX code (.word w) (.imm w.toInt16)

/-- **The vertical coordinate of a long drawing**, as the next two bits say. -/
inductive EncodesLongY (code : UInt8) : Field → Coordinate → Prop
  | near (b : UInt8) (short : code &&& 0x08 ≠ 0) :
    EncodesLongY code (.byte b) (.imm (.ofNat b.toNat))
  | reg (r : UInt8) (short : code &&& 0x08 = 0) (low : code &&& 0x04 ≠ 0) :
    EncodesLongY code (.byte r) (.reg r)
  | word (w : UInt16) (short : code &&& 0x08 = 0) (low : code &&& 0x04 = 0) :
    EncodesLongY code (.word w) (.imm w.toInt16)

/-- **The magnification of a long drawing** and the set of its shapes, as the last two bits say. Two
of the four forms have no field. -/
inductive EncodesLongZoom (code : UInt8) : List Field → Zoom → PolygonSet → Prop
  | native (bits : code &&& 0x03 = 0) : EncodesLongZoom code [] (.imm 0x40) .cinematic
  | reg (r : UInt8) (bits : code &&& 0x03 = 1) :
    EncodesLongZoom code [.byte r] (.reg r) .cinematic
  | byte (b : UInt8) (bits : code &&& 0x03 = 2) :
    EncodesLongZoom code [.byte b] (.imm b.toUInt16) .cinematic
  | characters (bits : code &&& 0x03 = 3) : EncodesLongZoom code [] (.imm 0x40) .characters

/-! ### The table -/

/-- **How instructions are stored.** -/
inductive Encodes : List Field → Instruction → Prop
  | movi (dst : UInt8) (imm : UInt16) :
    Encodes [.byte 0x00, .byte dst, .word imm] (.immediate .mov dst imm)
  | movr (dst src : UInt8) : Encodes [.byte 0x01, .byte dst, .byte src] (.register .mov dst src)
  | addr (dst src : UInt8) : Encodes [.byte 0x02, .byte dst, .byte src] (.register .add dst src)
  | addi (dst : UInt8) (imm : UInt16) :
    Encodes [.byte 0x03, .byte dst, .word imm] (.immediate .add dst imm)
  | call (target : UInt16) : Encodes [.byte 0x04, .word target] (.call target)
  | ret : Encodes [.byte 0x05] .ret
  | yield : Encodes [.byte 0x06] .yield
  | jump (target : UInt16) : Encodes [.byte 0x07, .word target] (.jump target)
  | init (thread : UInt8) (target : UInt16) :
    Encodes [.byte 0x08, .byte thread, .word target] (.init thread target)
  | djnz (reg : UInt8) (target : UInt16) :
    Encodes [.byte 0x09, .byte reg, .word target] (.djnz reg target)
  | cjmp {variant : UInt8} (reg : UInt8) {field : Field} {operand : Comparand} (target : UInt16)
    (compared : EncodesComparand variant field operand) :
    Encodes [.byte 0x0a, .byte variant, .byte reg, field, .word target]
      (.cjmp (.ofBits variant) reg operand target)
  | palette (number : UInt16) : Encodes [.byte 0x0b, .word number] (.palette number)
  | reset (first last mode : UInt8) :
    Encodes [.byte 0x0c, .byte first, .byte last, .byte mode] (.reset first last (.ofByte mode))
  | page (number : UInt8) : Encodes [.byte 0x0d, .byte number] (.page number)
  | fill (number color : UInt8) :
    Encodes [.byte 0x0e, .byte number, .byte color] (.fill number color)
  | copy (src dst : UInt8) : Encodes [.byte 0x0f, .byte src, .byte dst] (.copy src dst)
  | blit (number : UInt8) : Encodes [.byte 0x10, .byte number] (.blit number)
  | kill : Encodes [.byte 0x11] .kill
  | print (string : UInt16) (x y color : UInt8) :
    Encodes [.byte 0x12, .word string, .byte x, .byte y, .byte color] (.print string x y color)
  | subr (dst src : UInt8) : Encodes [.byte 0x13, .byte dst, .byte src] (.register .sub dst src)
  | andi (dst : UInt8) (imm : UInt16) :
    Encodes [.byte 0x14, .byte dst, .word imm] (.immediate .and dst imm)
  | iori (dst : UInt8) (imm : UInt16) :
    Encodes [.byte 0x15, .byte dst, .word imm] (.immediate .or dst imm)
  | shli (dst : UInt8) (imm : UInt16) :
    Encodes [.byte 0x16, .byte dst, .word imm] (.immediate .shl dst imm)
  | shri (dst : UInt8) (imm : UInt16) :
    Encodes [.byte 0x17, .byte dst, .word imm] (.immediate .shr dst imm)
  | sound (id : UInt16) (frequency volume channel : UInt8) :
    Encodes [.byte 0x18, .word id, .byte frequency, .byte volume, .byte channel]
      (.sound id frequency volume channel)
  | loadres (id : UInt16) : Encodes [.byte 0x19, .word id] (.loadres id)
  | music (id delay : UInt16) (position : UInt8) :
    Encodes [.byte 0x1a, .word id, .word delay, .byte position] (.music id delay position)
  /-- A byte without a meaning stands alone. -/
  | invalid {code : UInt8} (low : 0x1b ≤ code) (high : code < 0x40) :
    Encodes [.byte code] (.invalid code)
  /-- The stored number counts words of two bytes. -/
  | polyLong {code : UInt8} (low : 0x40 ≤ code) (high : code < 0x80) (number : UInt16)
    {horizontal vertical : Field} {magnification : List Field} {x y : Coordinate} {zoom : Zoom}
    {shapes : PolygonSet} (across : EncodesLongX code horizontal x)
    (down : EncodesLongY code vertical y)
    (size : EncodesLongZoom code magnification zoom shapes) :
    Encodes ([.byte code, .word number, horizontal, vertical] ++ magnification)
      (.poly code (.ofNat (2 * number.toNat)) x y zoom shapes)
  /-- The opcode begins the stored number. Rows below the last one continue to the right. -/
  | polyShort {code : UInt8} (low : 0x80 ≤ code) (number x y : UInt8) :
    Encodes [.byte code, .byte number, .byte x, .byte y]
      (.poly code (.ofNat (2 * (256 * code.toNat + number.toNat)))
        (.imm (.ofNat (x.toNat + (y.toNat - 199)))) (.imm (.ofNat (min y.toNat 199)))
        (.imm 0x40) .cinematic)

/-- **Bytes that store an instruction.** -/
def Encoding (bytes : List UInt8) (i : Instruction) : Prop :=
  ∃ fields, Encodes fields i ∧ bytes = spelled fields

/-! ### Widths -/

/-- The widths of an opcode's operands. The variant is the byte that follows the opcode. -/
def operandWidths (variant : UInt8) : Opcode → List Nat
  | .ret | .yield | .kill | .invalid _ => []
  | .page | .blit => [1]
  | .call | .jump | .palette | .loadres => [2]
  | .movr | .addr | .subr | .fill | .copy => [1, 1]
  | .movi | .addi | .andi | .iori | .shli | .shri | .init | .djnz => [1, 2]
  | .reset | .polyShort _ => [1, 1, 1]
  | .music => [2, 2, 1]
  | .print | .sound => [2, 1, 1, 1]
  | .cjmp => [1, 1, if variant &&& 0x80 = 0 ∧ variant &&& 0x40 ≠ 0 then 2 else 1, 2]
  | .polyLong code =>
    [2, if code &&& 0x20 = 0 ∧ code &&& 0x10 = 0 then 2 else 1,
      if code &&& 0x08 = 0 ∧ code &&& 0x04 = 0 then 2 else 1]
      ++ if code &&& 0x03 = 1 ∨ code &&& 0x03 = 2 then [1] else []

/-- **The widths of the fields of an instruction**, from its opcode and from the byte that
follows. -/
def fieldWidths (code variant : UInt8) : List Nat :=
  1 :: operandWidths variant (Opcode.ofByte code)

theorem sum_operandWidths_le (variant : UInt8) (op : Opcode) :
    (operandWidths variant op).sum ≤ 7 := by
  cases op with
  | cjmp =>
    rw [operandWidths]
    split <;> decide
  | polyLong code =>
    rw [operandWidths]
    split <;> split <;> split <;> decide
  | _ => exact Nat.le_of_ble_eq_true rfl

/-- **An instruction takes one byte to eight.** -/
theorem sum_fieldWidths_le (code variant : UInt8) :
    1 ≤ (fieldWidths code variant).sum ∧ (fieldWidths code variant).sum ≤ 8 := by
  have operands := sum_operandWidths_le variant (Opcode.ofByte code)
  rw [fieldWidths, List.sum_cons]
  omega

/-- **The second byte matters to a conditional jump only.** -/
theorem fieldWidths_congr {code : UInt8} (plain : Opcode.ofByte code ≠ .cjmp)
    (variant variant' : UInt8) : fieldWidths code variant = fieldWidths code variant' := by
  rw [fieldWidths, fieldWidths]
  generalize Opcode.ofByte code = op at plain
  cases op with
  | cjmp => exact absurd rfl plain
  | _ => rfl

/-! ### Fields in a segment -/

/-- **The fields stand in the segment** from a position on, one behind the other. -/
def FieldsAt (segment : Bytes) : Nat → List Field → Prop
  | _, [] => True
  | pos, f :: fields =>
    (pos + f.width ≤ segment.size ∧ segment.wordAt pos f.width = f.value) ∧
      FieldsAt segment (pos + f.width) fields

variable {segment : Bytes} {pos : Nat} {fields fields' : List Field}

theorem fieldsAt_append :
    FieldsAt segment pos (fields ++ fields') ↔
      FieldsAt segment pos fields ∧ FieldsAt segment (pos + extent fields) fields' := by
  induction fields generalizing pos with
  | nil => simp [FieldsAt]
  | cons f fields ih =>
    simp only [List.cons_append, FieldsAt, ih, extent_cons, ← Nat.add_assoc, and_assoc]

/-- Fields that stand in the segment end in it. -/
theorem FieldsAt.extent_le (here : FieldsAt segment pos fields) :
    fields = [] ∨ pos + extent fields ≤ segment.size := by
  induction fields generalizing pos with
  | nil => exact Or.inl rfl
  | cons f fields ih =>
    obtain ⟨⟨fits, -⟩, rest⟩ := here
    refine Or.inr ?_
    rcases ih rest with rfl | within
    · exact fits
    · rw [extent_cons]
      omega

/-- **The bytes of a segment between two positions are those of the fields that stand there.** -/
theorem FieldsAt.slice (here : FieldsAt segment pos fields) :
    (segment.slice pos (extent fields)).toList = spelled fields := by
  induction fields generalizing pos with
  | nil => simp [Bytes.slice, spelled]
  | cons f fields ih =>
    obtain ⟨⟨fits, value⟩, rest⟩ := here
    rw [extent_cons, Bytes.toList_slice_add, ih rest, ← Bytes.bigEndian_wordAt fits, value]
    rfl

/-- Fields stand where their bytes do. -/
theorem fieldsAt_of_slice (within : pos + extent fields ≤ segment.size)
    (same : (segment.slice pos (extent fields)).toList = spelled fields) :
    FieldsAt segment pos fields := by
  induction fields generalizing pos with
  | nil => trivial
  | cons f fields ih =>
    rw [extent_cons] at within same
    have fits : pos + f.width ≤ segment.size := by omega
    rw [Bytes.toList_slice_add, spelled_cons] at same
    obtain ⟨first, others⟩ := List.append_inj same (by
      rw [← Bytes.bigEndian_wordAt fits, Bytes.length_bigEndian, f.length_bytes])
    refine ⟨⟨fits, ?_⟩, ih (by omega) others⟩
    -- the number is read back from its bytes
    have read := Bytes.wordAt_bigEndian f.width f.value []
    rw [List.append_nil, Nat.mod_eq_of_lt f.value_lt, ← Field.bytes, ← first] at read
    rw [← read]
    refine Bytes.wordAt_congr fun k inside => ?_
    rw [Array.toArray_toList, Bytes.slice, Bytes.byteAt_extract (by omega), Nat.zero_add]

end Cinematic.Bytecode
