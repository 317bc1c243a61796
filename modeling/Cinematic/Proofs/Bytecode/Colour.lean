import Cinematic.Proofs.Bytecode.Sweep
import Cinematic.Proofs.Text.Escape

/-!
# Listings in colour

A listing in colour says what a listing without colour says (`Cinematic.Bytecode.listing_shown`). Two
things could spoil this. A mnemonic is widened inside its colour, so that the spaces behind the mnemonic
of an instruction without operands stand **before a sequence** and are not trimmed away; they are when
the sequences have been deleted. And a margin ends in spaces, which would be trimmed away too if a
line had nothing behind it; but **no instruction is without a mnemonic**
(`Cinematic.Bytecode.Instruction.visible_render`).
-/

namespace Cinematic.Bytecode

open Text (Span Palette Shows Reads Visible)

theorem Opcode.visible_mnemonic (op : Opcode) : Visible op.mnemonic := by
  cases op with
  | invalid code => exact (by decide : Visible "invalid")
  | polyLong code => exact (by decide : Visible "poly1")
  | polyShort code => exact (by decide : Visible "poly2")
  | _ => decide

/-- **There is something to see of every instruction.** -/
theorem Instruction.visible_render (i : Instruction) : Visible (i.render .none) := by
  obtain ⟨c, among, solid⟩ := i.opcode.visible_mnemonic.append_right
    (String.ofList (List.replicate (7 - i.opcode.mnemonic.length) ' '))
  refine ⟨c, ?_, solid⟩
  rw [render, Span.toList_renderAll, spans]
  refine List.mem_flatMap.2 ⟨_, List.mem_cons_self, ?_⟩
  rw [Span.render_none]
  exact among

section Silent

variable {p : Palette} (silent : p.Silent)
include silent

theorem Instruction.shows_render (i : Instruction) :
    Shows (i.render p).toList (i.render .none).toList :=
  silent.renderAll i.printable_spans

theorem shows_margin (pos : Nat) : Shows (margin p pos).toList (margin .none pos).toList := by
  have space : Shows "  ".toList "  ".toList := Text.Printable.shows (by decide)
  rw [margin, margin, String.toList_append, String.toList_append, String.toList_append,
    String.toList_append]
  exact (space.append (silent.paint _ (Text.printable_hex 4 _))).append space

/-- **The line of an instruction in colour** reads like the one without. -/
theorem Placed.reads_line (i : Placed) : Reads (i.line p) (i.line .none) :=
  Text.reads_append_trimEnd (shows_margin silent i.pos) (i.instruction.shows_render silent)
    i.instruction.visible_render

theorem reads_failureLine (pos : Nat) (e : ReadError) :
    Reads (failureLine p pos e) (failureLine .none pos e) := by
  refine ⟨failureLine .none pos e, ?_, ?_⟩
  · rw [failureLine, failureLine, String.toList_append, String.toList_append]
    exact (shows_margin silent pos).append (silent.paint _ (printable_failure e))
  · have last : Visible " bytes)" := by decide
    have closed : Text.trimEnd " bytes)" = " bytes)" := by decide
    rw [failureLine, Palette.paint_none, ReadError.message,
      Text.trimEnd_append ((last.append_left _).append_left _),
      Text.trimEnd_append (last.append_left _), Text.trimEnd_append last, closed]

theorem reads_codeLines (segment : Bytes) :
    List.Forall₂ Reads (codeLines p segment) (codeLines .none segment) := by
  refine List.rel_append ?_ ?_
  · rw [List.forall₂_map_left_iff, List.forall₂_map_right_iff, List.forall₂_same]
    exact fun i _ => i.reads_line silent
  · rcases (sweep segment).failure with _ | ⟨pos, e⟩
    · exact .nil
    · exact .cons (reads_failureLine silent pos e) .nil

end Silent

theorem reads_header (segment : Bytes) :
    List.Forall₂ Reads (listingHeader segment) (listingHeader segment) := by
  refine List.forall₂_same.2 fun line header => ⟨line, ?_, ?_⟩
  · exact (printable_header segment line header).shows
  · simp only [listingHeader, List.mem_cons, List.not_mem_nil, or_false] at header
    rcases header with rfl | rfl | rfl | rfl
    · decide
    · exact Text.trimEnd_append_toString "size = " segment.size
    · decide
    · decide

/-- **A listing in colour says what the listing says** without colour. -/
theorem listing_shown {p : Palette} (silent : p.Silent) (plain : p.Inline) (segment : Bytes) :
    Text.trimLines (Text.withoutEscapes (listing p segment)) = listing .none segment :=
  Text.trimLines_unlines (inline_lines plain segment)
    (List.rel_append (reads_header segment) (reads_codeLines silent segment))

end Cinematic.Bytecode
