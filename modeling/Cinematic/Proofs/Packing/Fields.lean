import Cinematic.Proofs.Packing.Exactness
import Cinematic.Proofs.Packing.InPlace
import Cinematic.Proofs.Packing.Layout

/-!
# Reading what was written

A packer writes numbers of various widths one after the other, most significant bit first, and an
expansion reads them back in the same order. Between the two the bits are torn apart: those that do not
fill a word go into the trailer, below a marker; the others fill words that are laid out in reverse and
read least significant bit first; and each word is fetched only when its first bit is needed, and has
the marker put back on its top.

**None of this shows.** Whatever is written is read again, up to what its width cuts off, and then
nothing is left (`Cinematic.Packing.read_layout`). The reader is followed by the invariant for whole
expansions (`Cinematic.Packing.Reading`), which does not care what is in the rest of the buffer or what
the numbers mean.
-/

namespace Cinematic.Packing

open Unpacker

variable {block buffer : Bytes} {bits : List Bool} {u v : Unpacker}

/-- **Numbers written one after the other**, each in a field of its width. -/
def written (fields : List (Nat × UInt32)) : List Bool :=
  fields.flatMap fun f => fieldBits f.1 f.2.toNat

/-- Fields that come next in a block are read as what they hold. -/
theorem Reading.fields_complete {fields : List (Nat × UInt32)} (h : Reading block u bits v)
    (more : bits ++ written fields <+: bitString block) :
    ∃ w, (fields.mapM fun f => field f.1) v = .ok (fields.map fun f => f.2.toNat % 2 ^ f.1) w ∧
      Reading block u (bits ++ written fields) w := by
  induction fields generalizing bits v with
  | nil => exact ⟨v, rfl, by simpa [written] using h⟩
  | cons f fields ih =>
    have parts : bits ++ written (f :: fields)
        = bits ++ fieldBits f.1 (f.2.toNat % 2 ^ f.1) ++ written fields := by
      rw [fieldBits_mod, written, List.flatMap_cons, ← List.append_assoc]
      rfl
    rw [parts] at more ⊢
    have small : f.2.toNat % 2 ^ f.1 < 2 ^ f.1 := Nat.mod_lt _ (Nat.two_pow_pos f.1)
    obtain ⟨v', first, next⟩ := h.field_complete small ((List.prefix_append _ _).trans more)
    obtain ⟨w, rest, last⟩ := ih next more
    refine ⟨w, ?_, last⟩
    rw [List.mapM_cons, bind_eq_of_ok first, bind_eq_of_ok rest]
    rfl

/-- When all bits of a layout have been read its words have cancelled out. -/
theorem Reading.check_layout {length : Nat} (h : Reading (layout bits length) u bits v) :
    v.check = 0 := by
  obtain ⟨k, read⟩ := h.words
  rw [read.check, read.eq_wordsReached, checkSumOf_layout]

/-- After the trailer nothing has been read yet. -/
theorem exists_reading_trailer {start : Nat} (trailed : trailerSize ≤ block.size)
    (front : buffer.extract 0 block.size = block)
    (announced : (tailWord block 0).toNat = buffer.size - start) (some : tailWord block 0 ≠ 0) :
    ∃ u, trailer ⟨buffer, block.size, buffer.size, start, 0, 0, 0⟩ = .ok () u ∧
      Reading block u [] u := by
  have intact : ∀ i < block.size, buffer.byteAt i = block.byteAt i :=
    fun i hi => byteAt_of_extract front hi
  obtain ⟨w, decision⟩ :=
    trailer_eq (u := ⟨buffer, block.size, buffer.size, start, 0, 0, 0⟩) trailed rfl intact
  rw [if_neg some, if_neg (not_not.2 announced)] at decision
  refine ⟨_, decision, rfl, fun i (hi : i < block.size - 4 - 4 - 4) => intact i (by omega), 0, ?_,
    rfl, rfl⟩
  simp only [trailerSize] at trailed ⊢
  omega

/-- **The reader inverts the writer.** Let any numbers be written in fields of any widths, and be laid
out as a block that announces some length. If a buffer begins with the block and has room for just this
length, the trailer is accepted, and fields of the same widths are read as the same numbers, each up to
what its width cuts off. Then the words read have cancelled out, and there is no further bit. -/
theorem read_layout (fields : List (Nat × UInt32)) {n : UInt32} (some : n ≠ 0) {start : Nat}
    (room : buffer.size - start = n.toNat) :
    let block := layout (written fields) n.toNat
    buffer.extract 0 block.size = block →
    ∃ u, (do trailer; fields.mapM fun f => field f.1 : Unpacking (List Nat))
        ⟨buffer, block.size, buffer.size, start, 0, 0, 0⟩
          = .ok (fields.map fun f => f.2.toNat % 2 ^ f.1) u ∧
      u.check = 0 ∧ bit u = .error .sourceExhausted u := by
  intro block front
  have announced : tailWord block 0 = n := (tailWord_layout _ _ rfl).trans UInt32.ofNat_toNat
  have trailed : trailerSize ≤ block.size := by
    rw [size_layout, trailerSize]
    omega
  have string : bitString block = written fields := bitString_layout _ _
  obtain ⟨u, begun, reading⟩ :=
    exists_reading_trailer trailed front (by rw [announced, room]) (announced ▸ some)
  have more : [] ++ written fields <+: bitString block := by
    rw [string]
    exact List.prefix_refl _
  obtain ⟨w, read, last⟩ := reading.fields_complete more
  rw [List.nil_append] at last
  have all : Reading block u (bitString block) w := string ▸ last
  exact ⟨w, (bind_eq_of_ok begun).trans read, last.check_layout, all.bit_exhausted⟩

/-- Two fields that fill a word, so that the marker stands alone in the trailer. The first number does
not fit its width. -/
theorem read_layout_of_full_word :
    let fields : List (Nat × UInt32) := [(12, 0x1abc), (20, 0xdef01)]
    let block := layout (written fields) (1 : UInt32).toNat
    let buffer := block ++ #[0]
    tailWord block 2 = 1 ∧
    ∃ u, (do trailer; fields.mapM fun f => field f.1 : Unpacking (List Nat))
        ⟨buffer, block.size, buffer.size, block.size, 0, 0, 0⟩ = .ok [0xabc, 0xdef01] u ∧
      u.check = 0 ∧ bit u = .error .sourceExhausted u := by
  intro fields block buffer
  have room : buffer.size - block.size = (1 : UInt32).toNat := by decide +kernel
  have front : buffer.extract 0 block.size = block := by decide +kernel
  have values : (fields.map fun f => f.2.toNat % 2 ^ f.1) = [0xabc, 0xdef01] := by decide
  rw [← values]
  exact ⟨by decide +kernel, read_layout fields (by decide) room front⟩

end Cinematic.Packing
