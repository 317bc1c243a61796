import Cinematic.Bytecode.Decode
import Cinematic.Proofs.Computation

/-!
# The opcode of what has been decoded

An instruction keeps the opcode that it was read from
(`Cinematic.Bytecode.Instruction.gives_decodeOperands`). For most constructors there is nothing to say; the
point are the two that carry their byte along, which could name any opcode. Reading gives a byte
without a meaning to `invalid` alone, and to `poly` only bytes that draw polygons.

So an instruction that has been read ends the slice if and only if it is `yield` or `kill`
(`Cinematic.Bytecode.Instruction.decode_yields_iff`).

The proof never runs a reader. It only asks what every result of a reader is like
(`Cinematic.Bytecode.Reader.Gives`), and of the readers of operands nothing is known at all.
-/

namespace Cinematic.Bytecode

namespace Reader

variable {α β : Type}

/-- Whatever the reader gives has the property. -/
def Gives (P : α → Prop) (x : Reader α) : Prop := ∀ ⦃c a c'⦄, x c = .ok a c' → P a

theorem Gives.pure {P : α → Prop} {a : α} (h : P a) : Gives P (Pure.pure a : Reader α) := by
  intro c b c' read
  cases read
  exact h

theorem Gives.bind {P : β → Prop} {x : Reader α} {f : α → Reader β} (h : ∀ a, Gives P (f a)) :
    Gives P (x >>= f) := by
  intro c b c' read
  obtain ⟨a, _, -, rest⟩ := bind_eq_ok.1 read
  exact h a rest

end Reader

open Reader (Gives)

namespace Opcode

/-- An opcode that carries its byte along is read from this byte. -/
theorem ofByte_eq_of_toByte {op : Opcode} {b code : UInt8} (read : op = ofByte b)
    (carries : op.toByte = code) : ofByte code = op := by
  rw [← carries, read, toByte_ofByte]

end Opcode

namespace Instruction

theorem gives_decodeImmediate (op : ImmediateOp) :
    Gives (·.opcode = op.opcode) (decodeImmediate op) :=
  .bind fun _ => .bind fun _ => .pure rfl

theorem gives_decodeRegister (op : RegisterOp) :
    Gives (·.opcode = op.opcode) (decodeRegister op) :=
  .bind fun _ => .bind fun _ => .pure rfl

theorem gives_decodePolyLong (code : UInt8) :
    Gives (·.opcode = Opcode.ofByte code) (decodePolyLong code) :=
  .bind fun _ => .bind fun _ => .bind fun _ => .bind fun _ => .pure rfl

theorem gives_decodePolyShort (code : UInt8) :
    Gives (·.opcode = Opcode.ofByte code) (decodePolyShort code) :=
  .bind fun _ => .bind fun _ => .bind fun _ => .pure rfl

/-- **The operands of an opcode make an instruction with this opcode**, if it is that of a byte. -/
theorem gives_decodeOperands {op : Opcode} {b : UInt8} (read : op = Opcode.ofByte b) :
    Gives (·.opcode = op) (decodeOperands op) := by
  cases op with
  | movi | addi | andi | iori | shli | shri => exact gives_decodeImmediate _
  | movr | addr | subr => exact gives_decodeRegister _
  | ret | yield | kill => exact .pure rfl
  | call | jump | palette | page | blit | loadres => exact .bind fun _ => .pure rfl
  | init | djnz | fill | copy => exact .bind fun _ => .bind fun _ => .pure rfl
  | reset | music => exact .bind fun _ => .bind fun _ => .bind fun _ => .pure rfl
  | cjmp | print => exact .bind fun _ => .bind fun _ => .bind fun _ => .bind fun _ => .pure rfl
  | sound =>
    exact .bind fun _ => .bind fun _ => .bind fun _ => .bind fun _ => .pure rfl
  | invalid code => exact .pure (Opcode.ofByte_eq_of_toByte read rfl)
  | polyLong code =>
    exact fun _ _ _ drawn =>
      (gives_decodePolyLong code drawn).trans (Opcode.ofByte_eq_of_toByte read rfl)
  | polyShort code =>
    exact fun _ _ _ drawn =>
      (gives_decodePolyShort code drawn).trans (Opcode.ofByte_eq_of_toByte read rfl)

/-- **Only `yield` and `kill` are read as instructions that end a slice.** -/
theorem decode_yields_iff :
    Gives (fun i => i.yields = true ↔ i = .yield ∨ i = .kill) decode := by
  refine .bind fun b c i c' read => ⟨fun yields => ?_, ?_⟩
  · have same := gives_decodeOperands rfl read
    rw [Instruction.yields, same] at yields
    generalize Opcode.ofByte b = op at read yields
    cases op with
    | yield =>
      cases read
      exact Or.inl rfl
    | kill =>
      cases read
      exact Or.inr rfl
    | _ => cases yields
  · rintro (rfl | rfl)
    · rfl
    · rfl

end Instruction

end Cinematic.Bytecode
