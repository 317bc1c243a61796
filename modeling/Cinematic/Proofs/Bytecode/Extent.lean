import Cinematic.Proofs.Bytecode.Decode

/-!
# Where an instruction ends

An instruction that has been read **lies within the segment**: it takes at least its opcode byte,
and the position just past its operands is at most the length of the segment
(`Cinematic.Bytecode.Instruction.decode_extent`). Where the segment has ended nothing can be read,
and the error says so with the offset and the length
(`Cinematic.Bytecode.Instruction.decode_of_le`).

That a reader stays within the segment is a property of readers that sequences inherit
(`Cinematic.Bytecode.Reader.Proceeds`), so the readers of operands need no more than a look at which
fields they are made of. A reader that reads nothing may stand anywhere, also past the end, so the
property bounds the cursor only if something was read.
-/

namespace Cinematic.Bytecode

namespace Reader

variable {α β : Type}

/-- **The reader goes forward in the segment**, and not beyond its end. -/
def Proceeds (x : Reader α) : Prop := ∀ ⦃c a c'⦄, x c = .ok a c' →
  c'.segment = c.segment ∧ c.pos ≤ c'.pos ∧ c'.pos ≤ max c.pos c.segment.size

theorem Proceeds.pure (a : α) : Proceeds (Pure.pure a : Reader α) := by
  intro c b c' read
  cases read
  exact ⟨rfl, Nat.le_refl _, Nat.le_max_left _ _⟩

theorem Proceeds.bind {x : Reader α} {f : α → Reader β} (first : Proceeds x)
    (second : ∀ a, Proceeds (f a)) : Proceeds (x >>= f) := by
  intro c b c' read
  obtain ⟨a, c₁, read₁, read₂⟩ := bind_eq_ok.1 read
  obtain ⟨segment₁, forward₁, within₁⟩ := first read₁
  obtain ⟨segment₂, forward₂, within₂⟩ := second a read₂
  rw [segment₁] at segment₂ within₂
  exact ⟨segment₂, by omega, by omega⟩

theorem take_eq_ok {width a : Nat} {c c' : Cursor} (read : take width c = .ok a c') :
    c'.segment = c.segment ∧ c'.pos = c.pos + width ∧ c'.pos ≤ c.segment.size := by
  unfold take at read
  split at read
  · next fits =>
    cases read
    exact ⟨rfl, rfl, fits⟩
  · cases read

theorem Proceeds.take (width : Nat) : Proceeds (take width) := by
  intro c a c' read
  obtain ⟨segment, moved, within⟩ := take_eq_ok read
  exact ⟨segment, by omega, by omega⟩

theorem Proceeds.byte : Proceeds byte := .bind (.take 1) fun _ => .pure _

theorem Proceeds.word : Proceeds word := .bind (.take 2) fun _ => .pure _

/-- A byte that has been read lies within the segment. -/
theorem byte_eq_ok {b : UInt8} {c c' : Cursor} (read : byte c = .ok b c') :
    c'.segment = c.segment ∧ c'.pos = c.pos + 1 ∧ c'.pos ≤ c.segment.size := by
  obtain ⟨a, c₁, taken, rest⟩ := bind_eq_ok.1 read
  cases rest
  exact take_eq_ok taken

theorem byte_of_le {c : Cursor} (ended : c.segment.size ≤ c.pos) :
    byte c = .error ⟨c.offset, 1, c.segment.size⟩ c :=
  bind_eq_of_error (take_of_lt (Nat.lt_succ_of_le ended))

end Reader

open Reader (Proceeds)

namespace Instruction

theorem proceeds_decodeImmediate (op : ImmediateOp) : Proceeds (decodeImmediate op) :=
  .bind .byte fun _ => .bind .word fun _ => .pure _

theorem proceeds_decodeRegister (op : RegisterOp) : Proceeds (decodeRegister op) :=
  .bind .byte fun _ => .bind .byte fun _ => .pure _

theorem proceeds_decodeComparand (variant : UInt8) : Proceeds (decodeComparand variant) := by
  unfold decodeComparand
  split
  · exact .bind .byte fun _ => .pure _
  · split
    · exact .bind .word fun _ => .pure _
    · exact .bind .byte fun _ => .pure _

theorem proceeds_decodeCjmp : Proceeds decodeCjmp :=
  .bind .byte fun variant => .bind .byte fun _ => .bind (proceeds_decodeComparand variant) fun _ =>
    .bind .word fun _ => .pure _

theorem proceeds_decodeLongX (code : UInt8) : Proceeds (decodeLongX code) := by
  unfold decodeLongX
  split
  · exact .bind .byte fun _ => .pure _
  · split
    · exact .bind .byte fun _ => .pure _
    · exact .bind .word fun _ => .pure _

theorem proceeds_decodeLongY (code : UInt8) : Proceeds (decodeLongY code) := by
  unfold decodeLongY
  split
  · exact .bind .byte fun _ => .pure _
  · split
    · exact .bind .byte fun _ => .pure _
    · exact .bind .word fun _ => .pure _

theorem proceeds_decodeLongZoom (code : UInt8) : Proceeds (decodeLongZoom code) := by
  unfold decodeLongZoom
  split
  · exact .pure _
  · exact .bind .byte fun _ => .pure _
  · exact .bind .byte fun _ => .pure _
  · exact .pure _

theorem proceeds_decodePolyLong (code : UInt8) : Proceeds (decodePolyLong code) :=
  .bind .word fun _ => .bind (proceeds_decodeLongX code) fun _ =>
    .bind (proceeds_decodeLongY code) fun _ => .bind (proceeds_decodeLongZoom code) fun _ => .pure _

theorem proceeds_decodePolyShort (code : UInt8) : Proceeds (decodePolyShort code) :=
  .bind .byte fun _ => .bind .byte fun _ => .bind .byte fun _ => .pure _

theorem proceeds_decodeOperands (op : Opcode) : Proceeds (decodeOperands op) := by
  cases op with
  | movi | addi | andi | iori | shli | shri => exact proceeds_decodeImmediate _
  | movr | addr | subr => exact proceeds_decodeRegister _
  | ret | yield | kill | invalid => exact .pure _
  | page | blit => exact .bind .byte fun _ => .pure _
  | call | jump | palette | loadres => exact .bind .word fun _ => .pure _
  | init | djnz => exact .bind .byte fun _ => .bind .word fun _ => .pure _
  | fill | copy => exact .bind .byte fun _ => .bind .byte fun _ => .pure _
  | reset => exact .bind .byte fun _ => .bind .byte fun _ => .bind .byte fun _ => .pure _
  | music => exact .bind .word fun _ => .bind .word fun _ => .bind .byte fun _ => .pure _
  | print | sound =>
    exact .bind .word fun _ => .bind .byte fun _ => .bind .byte fun _ => .bind .byte fun _ =>
      .pure _
  | cjmp => exact proceeds_decodeCjmp
  | polyLong code => exact proceeds_decodePolyLong code
  | polyShort code => exact proceeds_decodePolyShort code

variable {c c' : Cursor} {i : Instruction}

/-- **An instruction that has been read lies within the segment.** -/
theorem decode_extent (read : decode c = .ok i c') :
    c'.segment = c.segment ∧ c.pos < c'.pos ∧ c'.pos ≤ c.segment.size := by
  obtain ⟨b, c₁, byte, operands⟩ := bind_eq_ok.1 read
  obtain ⟨segment₁, past, fits⟩ := Reader.byte_eq_ok byte
  obtain ⟨segment₂, forward, within⟩ := proceeds_decodeOperands _ operands
  rw [segment₁, Nat.max_eq_right fits] at within
  exact ⟨segment₂.trans segment₁, by omega, within⟩

/-- **Where the segment has ended there is no instruction.** -/
theorem decode_of_le (ended : c.segment.size ≤ c.pos) :
    decode c = .error ⟨c.offset, 1, c.segment.size⟩ c :=
  bind_eq_of_error (Reader.byte_of_le ended)

/-- An instruction that ends the slice is nothing but its opcode. -/
theorem decode_pos_of_yields (read : decode c = .ok i c') (yields : i.yields = true) :
    c'.pos = c.pos + 1 := by
  obtain ⟨b, c₁, byte, operands⟩ := bind_eq_ok.1 read
  rw [Instruction.yields, gives_decodeOperands rfl operands] at yields
  obtain ⟨-, past, -⟩ := Reader.byte_eq_ok byte
  generalize Opcode.ofByte b = op at operands yields
  cases op with
  | yield | kill =>
    cases operands
    exact past
  | _ => cases yields

end Instruction

end Cinematic.Bytecode
