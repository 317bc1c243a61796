import Cinematic.Proofs.Bytecode.Extent
import Cinematic.Proofs.Bytecode.Table

/-!
# Decoding is exact

**An instruction is read just where the opcode table has one**
(`Cinematic.Bytecode.Instruction.decode_exact`). Reading succeeds if the bytes that the table asks
for are there, and only then; it ends just behind them; and the instruction is the one that the
table has for these bytes, whatever else is in the segment. Where the bytes do not suffice, reading
stops at the first field that does not fit, and says so.

The two directions are proved by two properties of readers, and sequences inherit both of them. What
a reader does with fields of given widths (`Cinematic.Bytecode.Reader.Reads`) is said for every
cursor, and covers its failures. That a reader accepts given fields
(`Cinematic.Bytecode.Reader.Accepts`) is said for cursors where they stand. No row of the table is
looked at more than once in each direction, and that the table has no two instructions for the same
bytes follows without looking at it at all.
-/

namespace Cinematic.Bytecode

namespace Reader

variable {α β : Type} {c : Cursor}

theorem byte_of_fits (fits : c.pos + 1 ≤ c.segment.size) :
    byte c = .ok (c.segment.byteAt c.pos) ⟨c.segment, c.pos + 1⟩ := by
  have same : (c.segment.wordAt c.pos 1).toUInt8 = c.segment.byteAt c.pos := by
    rw [Bytes.wordAt_one, Nat.toUInt8_eq, UInt8.ofNat_toNat]
  rw [byte, bind_eq_of_ok (take_of_le fits), same]
  rfl

theorem word_of_fits (fits : c.pos + 2 ≤ c.segment.size) :
    word c = .ok (c.segment.wordAt c.pos 2).toUInt16 ⟨c.segment, c.pos + 2⟩ := by
  rw [word, bind_eq_of_ok (take_of_le fits)]
  rfl

theorem word_of_lt (short : c.segment.size < c.pos + 2) :
    word c = .error ⟨c.offset, 2, c.segment.size⟩ c := bind_eq_of_error (take_of_lt short)

/-! ### Whatever a reader does -/

/-- **What a reader does with fields of given widths.** Either they are all there, and it moves past
them, or one of them does not fit, and it stays on the first of these. -/
inductive Reads (x : Reader α) (widths : List Nat) (P : List Field → α → Prop) (c : Cursor) : Prop
  | whole (fields : List Field) (a : α) (shape : fields.map Field.width = widths)
    (here : FieldsAt c.segment c.pos fields)
    (result : x c = .ok a ⟨c.segment, c.pos + widths.sum⟩) (value : P fields a) :
    Reads x widths P c
  | cut (before : List Nat) (width : Nat) (after : List Nat)
    (shape : widths = before ++ width :: after)
    (fits : before = [] ∨ c.pos + before.sum ≤ c.segment.size)
    (short : c.segment.size < c.pos + before.sum + width)
    (result : x c = .error ⟨(c.pos + before.sum).toUInt16, width, c.segment.size⟩
      ⟨c.segment, c.pos + before.sum⟩) : Reads x widths P c

variable {P : List Field → β → Prop} {widths : List Nat}

theorem Reads.pure {b : β} (value : P [] b) : Reads (Pure.pure b : Reader β) [] P c :=
  .whole [] b rfl trivial rfl value

/-- **What follows a reader begins where it has ended**, if it has not failed. -/
theorem Reads.bind {x : Reader α} {f : α → Reader β} {first : List Nat}
    {Q : List Field → α → Prop} (reads : Reads x first Q c)
    (rest : ∀ fields a, FieldsAt c.segment c.pos fields → Q fields a →
      Reads (f a) widths (fun others b => P (fields ++ others) b)
        ⟨c.segment, c.pos + first.sum⟩) :
    Reads (x >>= f) (first ++ widths) P c := by
  cases reads with
  | cut before width after shape fits short result =>
    refine .cut before width (after ++ widths) ?_ fits short (bind_eq_of_error result)
    rw [shape, List.append_assoc, List.cons_append]
  | whole fields a shape here result value =>
    have sum : first.sum = extent fields := by rw [extent, shape]
    cases rest fields a here value with
    | whole others b shape' here' result' value' =>
      refine .whole (fields ++ others) b ?_ (fieldsAt_append.2 ⟨here, ?_⟩) ?_ value'
      · rw [List.map_append, shape, shape']
      · rw [← sum]
        exact here'
      · rw [bind_eq_of_ok result, result', List.sum_append, Nat.add_assoc]
    | cut before width after shape' fits short result' =>
      refine .cut (first ++ before) width after ?_ ?_ ?_ ?_
      · rw [shape', List.append_assoc]
      · -- the last field that fits is one of the first reader's or one of the others
        rcases fits with rfl | fits
        · rw [List.append_nil, sum]
          rcases here.extent_le with rfl | within
          · exact Or.inl shape.symm
          · exact Or.inr within
        · refine Or.inr ?_
          rw [List.sum_append, ← Nat.add_assoc]
          exact fits
      · rw [List.sum_append, ← Nat.add_assoc]
        exact short
      · rw [bind_eq_of_ok result, List.sum_append, ← Nat.add_assoc]
        exact result'

theorem reads_byte (c : Cursor) :
    Reads byte [1] (fun fields b => b = c.segment.byteAt c.pos ∧ fields = [.byte b]) c := by
  by_cases fits : c.pos + 1 ≤ c.segment.size
  · refine .whole [.byte (c.segment.byteAt c.pos)] _ rfl ⟨⟨fits, ?_⟩, trivial⟩
      (byte_of_fits fits) ⟨rfl, rfl⟩
    exact Bytes.wordAt_one _ _
  · refine .cut [] 1 [] rfl (Or.inl rfl) (Nat.lt_of_not_le fits) (byte_of_le ?_)
    omega

theorem reads_word (c : Cursor) : Reads word [2] (fun fields w => fields = [.word w]) c := by
  by_cases fits : c.pos + 2 ≤ c.segment.size
  · refine .whole [.word (c.segment.wordAt c.pos 2).toUInt16] _ rfl ⟨⟨fits, ?_⟩, trivial⟩
      (word_of_fits fits) rfl
    exact (UInt16.toNat_ofNat_of_lt' (Bytes.wordAt_lt _ _ 2)).symm
  · have short := Nat.lt_of_not_le fits
    exact .cut [] 2 [] rfl (Or.inl rfl) short (word_of_lt short)

/-- A byte is read first. -/
theorem Reads.byte {f : UInt8 → Reader β}
    (rest : let b := c.segment.byteAt c.pos
      Reads (f b) widths (fun fields a => P (.byte b :: fields) a) ⟨c.segment, c.pos + 1⟩) :
    Reads (Reader.byte >>= f) (1 :: widths) P c := by
  refine (reads_byte c).bind fun fields b _ read => ?_
  obtain ⟨rfl, rfl⟩ := read
  exact rest

/-- A word is read first. -/
theorem Reads.word {f : UInt16 → Reader β}
    (rest : ∀ w, Reads (f w) widths (fun fields a => P (.word w :: fields) a)
      ⟨c.segment, c.pos + 2⟩) :
    Reads (Reader.word >>= f) (2 :: widths) P c := by
  refine (reads_word c).bind fun fields w _ read => ?_
  obtain rfl := read
  exact rest w

/-! ### What a reader accepts -/

/-- **The reader makes something of fields**, wherever they stand. -/
def Accepts (x : Reader α) (fields : List Field) (a : α) : Prop :=
  ∀ ⦃c : Cursor⦄, FieldsAt c.segment c.pos fields →
    x c = .ok a ⟨c.segment, c.pos + extent fields⟩

variable {fields others : List Field}

theorem Accepts.pure (a : α) : Accepts (Pure.pure a : Reader α) [] a := fun _ _ => rfl

theorem Accepts.bind {x : Reader α} {f : α → Reader β} {a : α} {b : β}
    (first : Accepts x fields a) (second : Accepts (f a) others b) :
    Accepts (x >>= f) (fields ++ others) b := by
  intro c here
  obtain ⟨here₁, here₂⟩ := fieldsAt_append.1 here
  rw [bind_eq_of_ok (first here₁), extent_append, ← Nat.add_assoc]
  exact second here₂

theorem accepts_byte (b : UInt8) : Accepts byte [.byte b] b := by
  rintro c ⟨⟨fits, value⟩, -⟩
  have same : c.segment.byteAt c.pos = b := by
    refine UInt8.toNat_inj.1 ?_
    rw [← Bytes.wordAt_one]
    exact value
  rw [byte_of_fits fits, same]
  rfl

theorem accepts_word (w : UInt16) : Accepts word [.word w] w := by
  rintro c ⟨⟨fits, value⟩, -⟩
  have same : c.segment.wordAt c.pos 2 = w.toNat := value
  rw [word_of_fits fits, same, Nat.toUInt16_eq, UInt16.ofNat_toNat]
  rfl

theorem Accepts.byte {f : UInt8 → Reader β} {b : UInt8} {a : β}
    (rest : Accepts (f b) fields a) : Accepts (Reader.byte >>= f) (.byte b :: fields) a :=
  (accepts_byte b).bind rest

theorem Accepts.word {f : UInt16 → Reader β} {w : UInt16} {a : β}
    (rest : Accepts (f w) fields a) : Accepts (Reader.word >>= f) (.word w :: fields) a :=
  (accepts_word w).bind rest

end Reader

/-! ### Bytes and opcodes -/

namespace Opcode

/-- The bytes that an opcode can have which keeps its byte. -/
def Ranged : Opcode → Prop
  | invalid code => 0x1b ≤ code ∧ code < 0x40
  | polyLong code => 0x40 ≤ code ∧ code < 0x80
  | polyShort code => 0x80 ≤ code
  | _ => True

instance (op : Opcode) : Decidable op.Ranged :=
  match op with
  | invalid code => inferInstanceAs (Decidable (0x1b ≤ code ∧ code < 0x40))
  | polyLong code => inferInstanceAs (Decidable (0x40 ≤ code ∧ code < 0x80))
  | polyShort code => inferInstanceAs (Decidable (0x80 ≤ code))
  | movi | movr | addr | addi | call | ret | yield | jump | init | djnz | cjmp | palette | reset
  | page | fill | copy | blit | kill | print | subr | andi | iori | shli | shri | sound | loadres
  | music => isTrue trivial

theorem ranged_ofByte (b : UInt8) : (ofByte b).Ranged := by
  have all : ∀ i : Fin 256, (ofByte ⟨⟨i⟩⟩).Ranged := by decide +kernel
  exact all b.toFin

/-- **An opcode is read from its byte**, if it can have this byte. -/
theorem ofByte_toByte (op : Opcode) (range : op.Ranged) : ofByte op.toByte = op := by
  have all : ∀ i : Fin 256, ∀ op ∈ [invalid ⟨⟨i⟩⟩, polyLong ⟨⟨i⟩⟩, polyShort ⟨⟨i⟩⟩],
      op.Ranged → ofByte ⟨⟨i⟩⟩ = op := by decide +kernel
  cases op with
  | invalid code => exact all code.toFin _ (by simp) range
  | polyLong code => exact all code.toFin _ (by simp) range
  | polyShort code => exact all code.toFin _ (by simp) range
  | _ => rfl

end Opcode

/-- A word that counts words of two bytes, doubled. -/
theorem mul_two_eq (w : UInt16) : w * 2 = UInt16.ofNat (2 * w.toNat) := by
  refine UInt16.toNat_inj.1 ?_
  rw [UInt16.toNat_mul, UInt16.toNat_ofNat', Nat.mul_comm]
  rfl

/-- A word put together from its two bytes. -/
theorem toNat_shiftLeft_or (high low : UInt8) :
    (high.toUInt16 <<< 8 ||| low.toUInt16).toNat = 256 * high.toNat + low.toNat := by
  have small := high.toNat_lt
  have shifted : (high.toUInt16 <<< 8).toNat = high.toNat <<< 8 := by
    rw [UInt16.toNat_shiftLeft, UInt8.toNat_toUInt16, Nat.mod_eq_of_lt]
    · rfl
    · rw [Nat.shiftLeft_eq]
      exact Nat.mul_lt_mul_of_pos_right small (by decide)
  rw [UInt16.toNat_or, shifted, UInt8.toNat_toUInt16,
    ← Nat.shiftLeft_add_eq_or_of_lt low.toNat_lt, Nat.shiftLeft_eq, Nat.mul_comm]

namespace Instruction

open Reader

/-! ### What is read is in the table -/

theorem reads_decodeComparand (variant : UInt8) (c : Cursor) :
    Reads (decodeComparand variant) [if variant &&& 0x80 = 0 ∧ variant &&& 0x40 ≠ 0 then 2 else 1]
      (fun fields operand => ∃ field, fields = [field] ∧ EncodesComparand variant field operand)
      c := by
  unfold decodeComparand
  by_cases high : variant &&& 0x80 = 0
  · by_cases next : variant &&& 0x40 = 0
    · rw [if_neg (not_not.2 high), if_neg (not_not.2 next), if_neg fun both => both.2 next]
      exact .byte (.pure ⟨_, rfl, .byte _ high next⟩)
    · rw [if_neg (not_not.2 high), if_pos next, if_pos ⟨high, next⟩]
      exact .word fun w => .pure ⟨_, rfl, .word w high next⟩
  · rw [if_pos high, if_neg fun both => high both.1]
    exact .byte (.pure ⟨_, rfl, .reg _ high⟩)

theorem reads_decodeLongX (code : UInt8) (c : Cursor) :
    Reads (decodeLongX code) [if code &&& 0x20 = 0 ∧ code &&& 0x10 = 0 then 2 else 1]
      (fun fields x => ∃ field, fields = [field] ∧ EncodesLongX code field x) c := by
  unfold decodeLongX
  by_cases short : code &&& 0x20 = 0
  · by_cases low : code &&& 0x10 = 0
    · rw [if_neg (not_not.2 short), if_neg (not_not.2 low), if_pos ⟨short, low⟩]
      exact .word fun w => .pure ⟨_, rfl, .word w short low⟩
    · rw [if_neg (not_not.2 short), if_pos low, if_neg fun both => low both.2]
      exact .byte (.pure ⟨_, rfl, .reg _ short low⟩)
  · rw [if_pos short, if_neg fun both => short both.1]
    refine .byte (.pure ⟨_, rfl, ?_⟩)
    by_cases low : code &&& 0x10 = 0
    · rw [if_neg (not_not.2 low)]
      exact .near _ short low
    · rw [if_pos low]
      exact .far _ short low

theorem reads_decodeLongY (code : UInt8) (c : Cursor) :
    Reads (decodeLongY code) [if code &&& 0x08 = 0 ∧ code &&& 0x04 = 0 then 2 else 1]
      (fun fields y => ∃ field, fields = [field] ∧ EncodesLongY code field y) c := by
  unfold decodeLongY
  by_cases short : code &&& 0x08 = 0
  · by_cases low : code &&& 0x04 = 0
    · rw [if_neg (not_not.2 short), if_neg (not_not.2 low), if_pos ⟨short, low⟩]
      exact .word fun w => .pure ⟨_, rfl, .word w short low⟩
    · rw [if_neg (not_not.2 short), if_pos low, if_neg fun both => low both.2]
      exact .byte (.pure ⟨_, rfl, .reg _ short low⟩)
  · rw [if_pos short, if_neg fun both => short both.1]
    exact .byte (.pure ⟨_, rfl, .near _ short⟩)

/-- Two bits have four values. -/
theorem and_three_cases (code : UInt8) :
    code &&& 0x03 = 0 ∨ code &&& 0x03 = 1 ∨ code &&& 0x03 = 2 ∨ code &&& 0x03 = 3 := by
  have all : ∀ i : Fin 256, let code : UInt8 := ⟨⟨i⟩⟩
      code &&& 0x03 = 0 ∨ code &&& 0x03 = 1 ∨ code &&& 0x03 = 2 ∨ code &&& 0x03 = 3 := by
    decide +kernel
  exact all code.toFin

theorem reads_decodeLongZoom (code : UInt8) (c : Cursor) :
    Reads (decodeLongZoom code) (if code &&& 0x03 = 1 ∨ code &&& 0x03 = 2 then [1] else [])
      (fun fields zoom => EncodesLongZoom code fields zoom.1 zoom.2) c := by
  unfold decodeLongZoom
  rcases and_three_cases code with bits | bits | bits | bits
  · rw [bits]
    exact .pure (.native bits)
  · rw [bits]
    exact .byte (.pure (.reg _ bits))
  · rw [bits]
    exact .byte (.pure (.byte _ bits))
  · rw [bits]
    exact .pure (.characters bits)

theorem reads_decodePolyLong {code : UInt8} (low : 0x40 ≤ code) (high : code < 0x80)
    (variant : UInt8) (c : Cursor) :
    Reads (decodePolyLong code) (operandWidths variant (.polyLong code))
      (fun fields i => Encodes (.byte code :: fields) i) c := by
  refine .word fun number => ?_
  refine (reads_decodeLongX code _).bind ?_
  rintro _ x - ⟨horizontal, rfl, across⟩
  refine (reads_decodeLongY code _).bind ?_
  rintro _ y - ⟨vertical, rfl, down⟩
  rw [← List.append_nil (if code &&& 0x03 = 1 ∨ code &&& 0x03 = 2 then [1] else [])]
  refine (reads_decodeLongZoom code _).bind fun magnification zoom _ size => .pure ?_
  rw [mul_two_eq, List.append_nil]
  exact .polyLong low high number across down size

theorem reads_decodePolyShort {code : UInt8} (low : 0x80 ≤ code) (c : Cursor) :
    Reads (decodePolyShort code) [1, 1, 1] (fun fields i => Encodes (.byte code :: fields) i)
      c := by
  refine .byte (.byte (.byte (.pure ?_)))
  rw [mul_two_eq, toNat_shiftLeft_or]
  exact .polyShort low _ _ _

/-- The operands of an opcode are read as the table has them. -/
theorem reads_decodeOperands (code : UInt8) (c : Cursor) :
    Reads (decodeOperands (Opcode.ofByte code))
      (operandWidths (c.segment.byteAt c.pos) (Opcode.ofByte code))
      (fun fields i => Encodes (.byte code :: fields) i) c := by
  have same := Opcode.toByte_ofByte code
  have range := Opcode.ranged_ofByte code
  generalize Opcode.ofByte code = op at same range
  subst same
  cases op with
  | movi => exact .byte (.word fun _ => .pure (.movi _ _))
  | movr => exact .byte (.byte (.pure (.movr _ _)))
  | addr => exact .byte (.byte (.pure (.addr _ _)))
  | addi => exact .byte (.word fun _ => .pure (.addi _ _))
  | call => exact .word fun _ => .pure (.call _)
  | ret => exact .pure .ret
  | yield => exact .pure .yield
  | jump => exact .word fun _ => .pure (.jump _)
  | init => exact .byte (.word fun _ => .pure (.init _ _))
  | djnz => exact .byte (.word fun _ => .pure (.djnz _ _))
  | cjmp =>
    refine .byte (.byte ((reads_decodeComparand _ _).bind ?_))
    rintro _ operand - ⟨field, rfl, compared⟩
    exact .word fun _ => .pure (.cjmp _ _ compared)
  | palette => exact .word fun _ => .pure (.palette _)
  | reset => exact .byte (.byte (.byte (.pure (.reset _ _ _))))
  | page => exact .byte (.pure (.page _))
  | fill => exact .byte (.byte (.pure (.fill _ _)))
  | copy => exact .byte (.byte (.pure (.copy _ _)))
  | blit => exact .byte (.pure (.blit _))
  | kill => exact .pure .kill
  | print => exact .word fun _ => .byte (.byte (.byte (.pure (.print _ _ _ _))))
  | subr => exact .byte (.byte (.pure (.subr _ _)))
  | andi => exact .byte (.word fun _ => .pure (.andi _ _))
  | iori => exact .byte (.word fun _ => .pure (.iori _ _))
  | shli => exact .byte (.word fun _ => .pure (.shli _ _))
  | shri => exact .byte (.word fun _ => .pure (.shri _ _))
  | sound => exact .word fun _ => .byte (.byte (.byte (.pure (.sound _ _ _ _))))
  | loadres => exact .word fun _ => .pure (.loadres _)
  | music => exact .word fun _ => .word fun _ => .byte (.pure (.music _ _ _))
  | invalid code => exact .pure (.invalid range.1 range.2)
  | polyLong code => exact reads_decodePolyLong range.1 range.2 _ c
  | polyShort code => exact reads_decodePolyShort range c

/-- **Reading does what the table says**, or stops at the first field that does not fit. -/
theorem reads_decode (c : Cursor) :
    Reads decode (fieldWidths (c.segment.byteAt c.pos) (c.segment.byteAt (c.pos + 1))) Encodes c :=
  .byte (reads_decodeOperands (c.segment.byteAt c.pos) ⟨c.segment, c.pos + 1⟩)

/-! ### What is in the table is read -/

theorem accepts_decodeComparand {variant : UInt8} {field : Field} {operand : Comparand}
    (compared : EncodesComparand variant field operand) :
    Accepts (decodeComparand variant) [field] operand := by
  unfold decodeComparand
  cases compared with
  | reg r high =>
    rw [if_pos high]
    exact .byte (.pure _)
  | word w high next =>
    rw [if_neg (not_not.2 high), if_pos next]
    exact .word (.pure _)
  | byte b high next =>
    rw [if_neg (not_not.2 high), if_neg (not_not.2 next)]
    exact .byte (.pure _)

theorem accepts_decodeLongX {code : UInt8} {field : Field} {x : Coordinate}
    (across : EncodesLongX code field x) : Accepts (decodeLongX code) [field] x := by
  unfold decodeLongX
  cases across with
  | near b short low =>
    rw [if_pos short]
    refine .byte ?_
    dsimp only
    rw [if_neg (not_not.2 low)]
    exact .pure _
  | far b short low =>
    rw [if_pos short]
    refine .byte ?_
    dsimp only
    rw [if_pos low]
    exact .pure _
  | reg r short low =>
    rw [if_neg (not_not.2 short), if_pos low]
    exact .byte (.pure _)
  | word w short low =>
    rw [if_neg (not_not.2 short), if_neg (not_not.2 low)]
    exact .word (.pure _)

theorem accepts_decodeLongY {code : UInt8} {field : Field} {y : Coordinate}
    (down : EncodesLongY code field y) : Accepts (decodeLongY code) [field] y := by
  unfold decodeLongY
  cases down with
  | near b short =>
    rw [if_pos short]
    exact .byte (.pure _)
  | reg r short low =>
    rw [if_neg (not_not.2 short), if_pos low]
    exact .byte (.pure _)
  | word w short low =>
    rw [if_neg (not_not.2 short), if_neg (not_not.2 low)]
    exact .word (.pure _)

theorem accepts_decodeLongZoom {code : UInt8} {fields : List Field} {zoom : Zoom}
    {shapes : PolygonSet} (size : EncodesLongZoom code fields zoom shapes) :
    Accepts (decodeLongZoom code) fields (zoom, shapes) := by
  unfold decodeLongZoom
  cases size with
  | native bits =>
    rw [bits]
    exact .pure _
  | reg r bits =>
    rw [bits]
    exact .byte (.pure _)
  | byte b bits =>
    rw [bits]
    exact .byte (.pure _)
  | characters bits =>
    rw [bits]
    exact .pure _

/-- **Every row of the table is read.** -/
theorem accepts_decode {fields : List Field} {i : Instruction} (stored : Encodes fields i) :
    Accepts decode fields i := by
  cases stored with
  | movi | addi | andi | iori | shli | shri | init | djnz => exact .byte (.byte (.word (.pure _)))
  | movr | addr | subr | fill | copy => exact .byte (.byte (.byte (.pure _)))
  | ret | yield | kill => exact .byte (.pure _)
  | page | blit => exact .byte (.byte (.pure _))
  | call | jump | palette | loadres => exact .byte (.word (.pure _))
  | reset => exact .byte (.byte (.byte (.byte (.pure _))))
  | print | sound => exact .byte (.word (.byte (.byte (.byte (.pure _)))))
  | music => exact .byte (.word (.word (.byte (.pure _))))
  | cjmp reg target compared =>
    exact .byte (.byte (.byte ((accepts_decodeComparand compared).bind (.word (.pure _)))))
  | @invalid code low high =>
    have read : Opcode.ofByte code = .invalid code :=
      Opcode.ofByte_toByte (.invalid code) ⟨low, high⟩
    refine .byte ?_
    rw [read]
    exact .pure _
  | @polyLong code low high number horizontal vertical magnification x y zoom shapes across down
      size =>
    have read : Opcode.ofByte code = .polyLong code :=
      Opcode.ofByte_toByte (.polyLong code) ⟨low, high⟩
    refine .byte ?_
    rw [read, ← mul_two_eq]
    refine .word ((accepts_decodeLongX across).bind ((accepts_decodeLongY down).bind ?_))
    rw [← List.append_nil magnification]
    exact (accepts_decodeLongZoom size).bind (.pure _)
  | @polyShort code low number x y =>
    have read : Opcode.ofByte code = .polyShort code := Opcode.ofByte_toByte (.polyShort code) low
    refine .byte ?_
    rw [read, ← toNat_shiftLeft_or, ← mul_two_eq]
    exact .byte (.byte (.byte (.pure _)))

/-! ### Both directions -/

variable {segment : Bytes} {pos : Nat} {i : Instruction}

/-- **Bytes that store an instruction are read as it**, wherever they stand. -/
theorem decode_of_encoding {bytes : List UInt8} (stored : Encoding bytes i) (segment : Bytes)
    (pos : Nat) (within : pos + bytes.length ≤ segment.size)
    (here : (segment.slice pos bytes.length).toList = bytes) :
    decode ⟨segment, pos⟩ = .ok i ⟨segment, pos + bytes.length⟩ := by
  obtain ⟨fields, row, rfl⟩ := stored
  rw [length_spelled] at within here ⊢
  exact accepts_decode row (fieldsAt_of_slice within here)

/-- The widths that the table gives to the fields of the instruction at a position. -/
def widthsAt (segment : Bytes) (pos : Nat) : List Nat :=
  fieldWidths (segment.byteAt pos) (segment.byteAt (pos + 1))

/-- How many bytes the table gives to the instruction at a position. -/
def lengthAt (segment : Bytes) (pos : Nat) : Nat := (widthsAt segment pos).sum

theorem lengthAt_pos (segment : Bytes) (pos : Nat) : 1 ≤ lengthAt segment pos :=
  (sum_fieldWidths_le _ _).1

/-- **Reading stops at the first field that does not fit**, if there is one. -/
theorem decode_of_lt (short : segment.size < pos + lengthAt segment pos) :
    ∃ before width after, widthsAt segment pos = before ++ width :: after ∧
      (before = [] ∨ pos + before.sum ≤ segment.size) ∧
      segment.size < pos + before.sum + width ∧
      decode ⟨segment, pos⟩ = .error ⟨(pos + before.sum).toUInt16, width, segment.size⟩
        ⟨segment, pos + before.sum⟩ := by
  cases reads_decode ⟨segment, pos⟩ with
  | cut before width after shape fits short result =>
    exact ⟨before, width, after, shape, fits, short, result⟩
  | whole fields i shape here result row =>
    -- all fields being there, none is short
    have length : lengthAt segment pos = extent fields := by rw [lengthAt, extent, shape]; rfl
    rcases here.extent_le with rfl | within
    · cases shape
    · rw [length] at short
      exact absurd within (Nat.not_le.2 short)

/-- **Reading succeeds if there are as many bytes as the table asks for.** -/
theorem decode_of_fits (fits : pos + lengthAt segment pos ≤ segment.size) :
    ∃ i, decode ⟨segment, pos⟩ = .ok i ⟨segment, pos + lengthAt segment pos⟩ ∧
      Encoding (segment.slice pos (lengthAt segment pos)).toList i := by
  cases reads_decode ⟨segment, pos⟩ with
  | cut before width after shape _ short result =>
    have shape : widthsAt segment pos = before ++ width :: after := shape
    rw [lengthAt, shape, List.sum_append, List.sum_cons] at fits
    dsimp only at short
    omega
  | whole fields i shape here result row =>
    have length : lengthAt segment pos = extent fields := by rw [lengthAt, extent, shape]; rfl
    refine ⟨i, result, fields, row, ?_⟩
    rw [length]
    exact here.slice

/-- **Reading succeeds only then**, and what it gives is stored in these bytes. -/
theorem decode_eq_ok {c : Cursor} (read : decode ⟨segment, pos⟩ = .ok i c) :
    pos + lengthAt segment pos ≤ segment.size ∧ c = ⟨segment, pos + lengthAt segment pos⟩ ∧
      Encoding (segment.slice pos (lengthAt segment pos)).toList i := by
  rcases Nat.lt_or_ge segment.size (pos + lengthAt segment pos) with short | fits
  · obtain ⟨_, _, _, -, -, -, failed⟩ := decode_of_lt short
    cases failed.symm.trans read
  · obtain ⟨i', read', stored⟩ := decode_of_fits fits
    cases read'.symm.trans read
    exact ⟨fits, rfl, stored⟩

/-- The opcode of an instruction that is read is the one at the position. -/
theorem opcode_of_decode {c : Cursor} (read : decode ⟨segment, pos⟩ = .ok i c) :
    i.opcode = Opcode.ofByte (segment.byteAt pos) := by
  obtain ⟨-, past, within⟩ := decode_extent read
  have first : byte ⟨segment, pos⟩ = .ok (segment.byteAt pos) ⟨segment, pos + 1⟩ :=
    byte_of_fits (Nat.le_trans past within)
  rw [decode, bind_eq_of_ok first] at read
  exact gives_decodeOperands rfl read

/-- **Where the same bytes stand the same instruction is read.** -/
theorem decode_congr {c : Cursor} (read : decode ⟨segment, pos⟩ = .ok i c) {segment' : Bytes}
    {pos' : Nat} (same : segment'.slice pos' (lengthAt segment pos)
      = segment.slice pos (lengthAt segment pos)) :
    decode ⟨segment', pos'⟩ = .ok i ⟨segment', pos' + lengthAt segment pos⟩ := by
  obtain ⟨fits, -, stored⟩ := decode_eq_ok read
  have size : (segment.slice pos (lengthAt segment pos)).toList.length = lengthAt segment pos := by
    rw [Array.length_toList, Bytes.slice, Array.size_extract]
    omega
  have size' : (segment'.slice pos' (lengthAt segment pos)).size = lengthAt segment pos := by
    rw [same]
    exact size
  have within : pos' + lengthAt segment pos ≤ segment'.size := by
    have positive := lengthAt_pos segment pos
    rw [Bytes.slice, Array.size_extract] at size'
    omega
  have here := decode_of_encoding stored segment' pos'
  rw [size] at here
  exact here within (congrArg Array.toList same)

/-- **Decoding is exact and local.** Let the table give to the bytes at a position and behind it the
widths of an instruction's fields; the second byte matters to conditional jumps only. The
instruction is read if and only if all fields fit, so that nothing is read where the opcode or the
variant is missing. What is read ends behind them, has the opcode of the first byte, is the
instruction that the table has for just these bytes, and is read wherever else they stand. Otherwise
the error tells the offset, as sixteen bits, and the width of the first field that does not fit, and
the cursor stands on this field. -/
theorem decode_exact (segment : Bytes) (pos : Nat) :
    let code := segment.byteAt pos
    let widths := fieldWidths code (segment.byteAt (pos + 1))
    let length := widths.sum
    (1 ≤ length ∧ length ≤ 8) ∧
      (code ≠ 0x0a → ∀ variant, fieldWidths code variant = widths) ∧
      ((∃ i c, decode ⟨segment, pos⟩ = .ok i c) ↔ pos + length ≤ segment.size) ∧
      (∀ i c, decode ⟨segment, pos⟩ = .ok i c →
        c = ⟨segment, pos + length⟩ ∧ i.opcode.toByte = code ∧
        Encoding (segment.slice pos length).toList i ∧
        ∀ (segment' : Bytes) (pos' : Nat),
          segment'.slice pos' length = segment.slice pos length →
            decode ⟨segment', pos'⟩ = .ok i ⟨segment', pos' + length⟩) ∧
      (segment.size ≤ pos ∨ code = 0x0a ∧ segment.size ≤ pos + 1 →
        ∃ e c, decode ⟨segment, pos⟩ = .error e c) ∧
      ∀ e c, decode ⟨segment, pos⟩ = .error e c →
        ∃ before width after, widths = before ++ width :: after ∧
          (before = [] ∨ pos + before.sum ≤ segment.size) ∧
          segment.size < pos + before.sum + width ∧
          e = ⟨(pos + before.sum).toUInt16, width, segment.size⟩ ∧
          c = ⟨segment, pos + before.sum⟩ := by
  intro code widths length
  refine ⟨sum_fieldWidths_le _ _, fun other variant => ?_, ⟨?_, fun fits => ?_⟩, fun i c read => ?_,
    fun missing => ?_, fun e c failed => ?_⟩
  · refine fieldWidths_congr (fun jump => other ?_) _ _
    rw [← Opcode.toByte_ofByte code, jump]
    rfl
  · rintro ⟨i, c, read⟩
    exact (decode_eq_ok read).1
  · obtain ⟨i, read, -⟩ := decode_of_fits fits
    exact ⟨i, _, read⟩
  · obtain ⟨-, moved, stored⟩ := decode_eq_ok read
    refine ⟨moved, ?_, stored, fun segment' pos' same => decode_congr read same⟩
    rw [opcode_of_decode read, Opcode.toByte_ofByte]
  · have short : segment.size < pos + lengthAt segment pos := by
      rcases missing with opcode | ⟨jump, variant⟩
      · have positive := lengthAt_pos segment pos
        omega
      · have long : 2 ≤ lengthAt segment pos := by
          rw [lengthAt, widthsAt, show segment.byteAt pos = 0x0a from jump]
          change 2 ≤ 1 + (1 + _)
          omega
        omega
    obtain ⟨_, _, _, -, -, -, failed⟩ := decode_of_lt short
    exact ⟨_, _, failed⟩
  · rcases Nat.lt_or_ge segment.size (pos + lengthAt segment pos) with short | fits
    · obtain ⟨before, width, after, shape, whole, short, failed'⟩ := decode_of_lt short
      cases failed'.symm.trans failed
      exact ⟨before, width, after, shape, whole, short, rfl, rfl⟩
    · obtain ⟨i, read, -⟩ := decode_of_fits fits
      cases read.symm.trans failed

end Instruction

end Cinematic.Bytecode
