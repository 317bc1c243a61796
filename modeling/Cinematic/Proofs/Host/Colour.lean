import Cinematic.Proofs.Bytecode.Colour
import Cinematic.Proofs.Machine.Comparison

/-!
# Traces in colour

A trace in colour says what a trace without colour says, line by line. For a single step this is a
matter of its line (`Cinematic.Sheet.bare_line?`). For a pass it is a matter of two runs: a machine does
not see the sheet that its host writes on, so **two sheets that differ in nothing but colours stay so
whatever is run** (`Cinematic.Host.alike_onSheet`), with the same lines left out.

A sheet that has been discoloured (`Cinematic.Sheet.discoloured`) has as many lines as before, so that
it is full when the coloured one is.
-/

namespace Cinematic

open Text (Palette Shows Reads)

/-- **A host that writes the steps of a pass on a sheet**, besides whatever it does. -/
def Host.onSheet {σ : Type} (h : Host σ) : Host (σ × Sheet) where
  resource? s id := h.resource? s.1 id
  load s id := ((h.load s.1 id).1, (h.load s.1 id).2, s.2)
  call s c := (h.call s.1 c, s.2)
  observe s e := (h.observe s.1 e, s.2.observe e)
  note s e := (h.note s.1 e, s.2)
  ticks s := h.ticks s.1

namespace Sheet

/-- The sheet without colours. -/
def discoloured (sheet : Sheet) : Sheet :=
  { sheet with palette := .none, lines := sheet.lines.map Text.bare }

theorem printable_threadNumber (t : Fin threadCount) : Text.Printable (threadNumber t) := by
  revert t
  decide +kernel

section Silent

variable {p : Palette} (silent : p.Silent)
include silent

theorem shows_indented (role : Text.Role) {t : String} (printable : Text.Printable t) :
    Shows ("  " ++ p.paint role t).toList ("  " ++ Palette.none.paint role t).toList := by
  rw [String.toList_append, String.toList_append]
  exact (Text.Printable.shows (by decide)).append (silent.paint role printable)

/-- **The line of a step in colour** reads like the one without. -/
theorem bare_line? (e : TraceEvent) : (line? p e).map Text.bare = line? .none e := by
  cases e with
  | pass number =>
    have printable : Text.Printable ("pass " ++ toString number) := by simp +decide
    refine congrArg some (Reads.bare ⟨_, silent.paint .mnemonic printable, ?_⟩)
    rw [Palette.paint_none, Text.trimEnd_append_toString]
  | slice t pc => rfl
  | instruction t pc i =>
    have printable : Text.Printable (threadNumber t ++ " " ++ Text.hex 4 pc.toNat) := by
      simp +decide [printable_threadNumber]
    refine congrArg some (Reads.bare (Text.reads_append_trimEnd ?_ (i.shows_render silent)
      i.visible_render))
    rw [String.toList_append, String.toList_append (t := "  ")]
    exact (shows_indented silent .offset printable).append (Text.Printable.shows (by decide))
  | yielded t pc =>
    have printable : Text.Printable (threadNumber t ++ " ---- -> " ++ Text.hex 4 pc.toNat) := by
      simp +decide [printable_threadNumber]
    refine congrArg some (Reads.bare ⟨_, shows_indented silent .offset printable, ?_⟩)
    rw [Palette.paint_none, ← String.append_assoc, Text.trimEnd_append_hex]

end Silent

theorem isFull_discoloured (sheet : Sheet) : sheet.discoloured.isFull = sheet.isFull := by
  rw [isFull, isFull, discoloured, Array.size_map]

theorem discoloured_write (sheet : Sheet) (line : String) :
    (sheet.write line).discoloured = sheet.discoloured.write (Text.bare line) := by
  rw [write, write, isFull_discoloured]
  split
  · rfl
  · rw [discoloured, discoloured, Array.map_push]

/-- **Colours make no difference to what is written.** -/
theorem discoloured_observe {sheet : Sheet} (silent : sheet.palette.Silent) (e : TraceEvent) :
    (sheet.observe e).discoloured = sheet.discoloured.observe e := by
  have plain : (line? sheet.palette e).map Text.bare = line? sheet.discoloured.palette e :=
    bare_line? silent e
  rw [observe, observe, ← plain]
  rcases line? sheet.palette e with _ | line
  · rfl
  · exact sheet.discoloured_write line

/-- **The line that admits what was left out** reads like the one without colour. -/
theorem bare_closing {sheet : Sheet} (silent : sheet.palette.Silent) :
    sheet.closing.map Text.bare = sheet.discoloured.closing := by
  obtain ⟨p, limit, lines, truncated⟩ := sheet
  rcases limit with _ | limit
  · rfl
  cases truncated with
  | false => rfl
  | true =>
    have printable : Text.Printable ("... trace truncated after " ++ toString limit ++ " lines") := by
      simp +decide
    have last : Text.Visible " lines" := by decide
    have closed : Text.trimEnd " lines" = " lines" := by decide
    refine congrArg (fun line => [line]) (Reads.bare ⟨_, silent.paint .offset printable, ?_⟩)
    rw [Palette.paint_none, Text.trimEnd_append last, closed]
    exact (Palette.paint_none _ _).symm

theorem palette_observe (sheet : Sheet) (e : TraceEvent) :
    (sheet.observe e).palette = sheet.palette := by
  unfold observe write
  split
  · split
    · rfl
    · rfl
  · rfl

end Sheet

theorem Host.onSheet_observe {σ : Type} (h : Host σ) {s : σ × Sheet}
    (silent : s.2.palette.Silent) (e : TraceEvent) :
    (h.onSheet.observe s e).2.palette.Silent ∧
      h.onSheet.observe (s.1, s.2.discoloured) e
        = ((h.onSheet.observe s e).1, (h.onSheet.observe s e).2.discoloured) := by
  refine ⟨?_, congrArg (Prod.mk (h.observe s.1 e)) (Sheet.discoloured_observe silent e).symm⟩
  change (s.2.observe e).palette.Silent
  rwa [Sheet.palette_observe]

/-- **Sheets that differ in colours** stay so. -/
theorem Host.alike_onSheet {σ : Type} (h : Host σ) : h.onSheet.Alike h.onSheet
    (fun s s' => s.2.palette.Silent ∧ s' = (s.1, s.2.discoloured)) Eq where
  resource? related id := by rw [related.2]; rfl
  load related id := by rw [related.2]; exact ⟨rfl, related.1, rfl⟩
  call related c := by rw [related.2]; exact ⟨related.1, rfl⟩
  note related e := by rw [related.2]; exact ⟨related.1, rfl⟩
  observe related e _ := by
    rw [related.2]
    exact h.onSheet_observe related.1 e
  pass related _ _ numbers := by
    rw [related.2, numbers]
    exact h.onSheet_observe related.1 _

/-- **Colours add nothing but escape sequences.** If they are deleted from the listing of a segment in
colour, and the spaces at the ends of the lines with them, the listing without colour is left. So it
is with every line of a trace. And a pass with a host that writes a trace in colour does just what
the pass does with one that writes it without, whatever has been written before: it leaves the same
machine, the same result and the same host, and on the one sheet, line by line, what the lines on the
other one show, with the same lines left out. -/
theorem colour_adds_escapes :
    (∀ segment : Bytes,
        Text.trimLines (Text.withoutEscapes (Bytecode.listing .terminal segment))
          = Bytecode.listing .none segment) ∧
      (∀ e, (Sheet.line? .terminal e).map Text.bare = Sheet.line? .none e) ∧
      ∀ (σ : Type) (h : Host σ) (m : Machine) (c : Controls) (s : σ) (limit : Option Nat)
        (lines : Array String) (truncated : Bool),
        let coloured := Machine.step h.onSheet m c (s, ⟨.terminal, limit, lines, truncated⟩)
        let plain := Machine.step h.onSheet m c (s, ⟨.none, limit, lines.map Text.bare, truncated⟩)
        plain.machine = coloured.machine ∧ plain.result = coloured.result ∧
          plain.host.1 = coloured.host.1 ∧
          plain.host.2.lines = coloured.host.2.lines.map Text.bare ∧
          plain.host.2.closing = coloured.host.2.closing.map Text.bare := by
  refine ⟨?_, Sheet.bare_line? Palette.silent_terminal, ?_⟩
  · exact Bytecode.listing_shown Palette.silent_terminal (Palette.inline_ofBool true)
  · intro σ h m c s limit lines truncated coloured plain
    let start : σ × Sheet := (s, ⟨.terminal, limit, lines, truncated⟩)
    have related : start.2.palette.Silent ∧
        (s, start.2.discoloured) = (start.1, start.2.discoloured) :=
      ⟨Palette.silent_terminal, rfl⟩
    obtain ⟨machine, result, silent', host⟩ := Machine.step_related h.alike_onSheet m c related
    have host : plain.host = (coloured.host.1, coloured.host.2.discoloured) := host
    refine ⟨machine, result, ?_⟩
    rw [host]
    exact ⟨rfl, rfl, (Sheet.bare_closing silent').symm⟩

end Cinematic
