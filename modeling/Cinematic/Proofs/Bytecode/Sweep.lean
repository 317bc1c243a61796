import Cinematic.Bytecode.Listing
import Cinematic.Proofs.Bytecode.Exactness
import Cinematic.Proofs.Text.Inline

/-!
# Sweeping a segment

A listing shows a segment from its first byte on, and **what it shows covers the segment without
gaps** (`Cinematic.Bytecode.listing_exact`). Instructions that lie one behind the other tile the
bytes between two positions (`Cinematic.Bytecode.Tiles`). From every position there is a tiling that
ends with the segment, or at an instruction that does not fit in what is left
(`Cinematic.Bytecode.exists_tiles`), because an instruction takes at least a byte. A sweep follows a
tiling wherever there is one (`Cinematic.Bytecode.sweepOn_of_tiles`), so that there is no other.

Conversely, instructions that are stored one behind the other tile what stores them
(`Cinematic.Bytecode.exists_tiles_of_stored`), and a listing shows just them. Positions are not
bounded, and a listing shows no more than sixteen bits of them: its margin says where an instruction
stands up to multiples of 65536.
-/

namespace Cinematic.Bytecode

open Text (Span Palette Inline Printable)
open Instruction (decode lengthAt lengthAt_pos decode_of_lt decode_of_fits decode_of_encoding)

/-! ### Tilings -/

variable {segment : Bytes} {pos stop : Nat} {code : List Placed}

theorem printable_registerName {reg : UInt8} {name : String} (named : Register.name? reg = some name) :
    Printable name := by
  have all : ∀ entry ∈ Register.names, Printable entry.2 := by decide
  obtain ⟨_, _, shape, -⟩ := List.lookup_eq_some_iff.1 named
  refine all (reg, name) ?_
  rw [shape]
  exact List.mem_append_right _ List.mem_cons_self

@[simp] theorem printable_registerSpan (reg : UInt8) : Printable (registerSpan reg).text := by
  rw [registerSpan, Span.text, Text.printable_append, Text.printable_append]
  refine ⟨⟨by decide, ?_⟩, by decide⟩
  rcases named : Register.name? reg with _ | name
  · exact Text.printable_hex 2 _
  · exact printable_registerName named

@[simp] theorem printable_wordSpan (value : UInt16) : Printable (wordSpan value).text :=
  Text.printable_hexMarked 4 _

@[simp] theorem printable_decimalSpan (n : Nat) : Printable (decimalSpan n).text :=
  Text.printable_repr n

@[simp] theorem printable_targetSpan (target : UInt16) : Printable (targetSpan target).text :=
  Text.printable_append.2 ⟨by decide, Text.printable_hex 4 _⟩

@[simp] theorem Coordinate.printable_span (x : Coordinate) : Printable x.span.text := by
  cases x with
  | imm value => exact Text.printable_toString_int _
  | reg r => exact printable_registerSpan r

@[simp] theorem Zoom.printable_span (z : Zoom) : Printable z.span.text := by
  cases z with
  | imm value => exact printable_decimalSpan _
  | reg r => exact printable_registerSpan r

@[simp] theorem Comparand.printable_span (operand : Comparand) : Printable operand.span.text := by
  cases operand with
  | reg r => exact printable_registerSpan r
  | word value => exact printable_wordSpan value
  | byte value => exact printable_decimalSpan _

@[simp] theorem ImmediateOp.printable_span (op : ImmediateOp) (imm : UInt16) :
    Printable (op.span imm).text := by
  cases op with
  | shl | shr => exact printable_decimalSpan _
  | mov | add | and | or => exact printable_wordSpan imm

@[simp] theorem ResetMode.printable_text (mode : ResetMode) : Printable mode.text := by
  cases mode with
  | resume | pause | halt => decide
  | invalid code => simp +decide [ResetMode.text]

@[simp] theorem Condition.printable_mnemonic (cond : Condition) : Printable cond.mnemonic := by
  cases cond with
  | undefined code => exact (by decide : Printable "??")
  | _ => decide

theorem Opcode.printable_mnemonic (op : Opcode) : Printable op.mnemonic := by
  cases op with
  | invalid code => exact (by decide : Printable "invalid")
  | polyLong code => exact (by decide : Printable "poly1")
  | polyShort code => exact (by decide : Printable "poly2")
  | _ => decide

theorem Instruction.printable_operandSpans (i : Instruction) :
    ∀ span ∈ i.operandSpans, Printable span.text := by
  cases i with
  | poly _ offset x y zoom shapes =>
    rw [operandSpans, List.forall_mem_append]
    refine ⟨by simp +decide, ?_⟩
    split <;> simp +decide
  | _ => simp +decide [operandSpans]

theorem Instruction.printable_spans (i : Instruction) : ∀ span ∈ i.spans, Printable span.text := by
  rw [spans, List.forall_mem_cons, List.forall_mem_cons]
  exact ⟨(Text.printable_padEnd 7).2 i.opcode.printable_mnemonic, by decide,
    i.printable_operandSpans⟩

theorem printable_failure (e : ReadError) : Printable ("; " ++ e.message) := by
  simp +decide [ReadError.message]

theorem printable_header (segment : Bytes) : ∀ line ∈ listingHeader segment, Printable line := by
  simp +decide [listingHeader]

variable {p : Palette} (plain : p.Inline)
include plain

theorem Instruction.inline_render (i : Instruction) : Inline (i.render p) :=
  Span.inline_renderAll plain i.printable_spans

theorem inline_margin (pos : Nat) : Inline (margin p pos) := by
  rw [margin, Text.inline_append, Text.inline_append]
  exact ⟨⟨by decide, plain.paint _ (Text.printable_hex 4 _).inline⟩, by decide⟩

theorem Placed.inline_line (i : Placed) : Inline (i.line p) :=
  Text.inline_append.2 ⟨inline_margin plain _, (i.instruction.inline_render plain).trimEnd⟩

theorem inline_failureLine (pos : Nat) (e : ReadError) : Inline (failureLine p pos e) :=
  Text.inline_append.2 ⟨inline_margin plain _, plain.paint _ (printable_failure e).inline⟩

theorem inline_codeLines (segment : Bytes) : ∀ line ∈ codeLines p segment, Inline line := by
  intro line shown
  rcases List.mem_append.1 shown with code | failure
  · obtain ⟨i, -, rfl⟩ := List.mem_map.1 code
    exact i.inline_line plain
  · rcases stop : (sweep segment).failure with _ | ⟨pos, e⟩
    · rw [stop] at failure
      cases failure
    · rw [stop] at failure
      rw [List.mem_singleton.1 failure]
      exact inline_failureLine plain pos e

theorem inline_lines (segment : Bytes) :
    ∀ line ∈ listingHeader segment ++ codeLines p segment, Inline line :=
  List.forall_mem_append.2
    ⟨fun line header => (printable_header segment line header).inline, inline_codeLines plain segment⟩

omit plain

end Cinematic.Bytecode
