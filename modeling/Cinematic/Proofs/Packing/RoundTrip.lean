import Cinematic.Proofs.Packing.Greedy
import Cinematic.Proofs.Packing.InPlace

/-!
# Packing and expanding

**What has been packed expands to what it was**, in place and above a copy, and a packed block is
never longer than its data (`Cinematic.Packing.pack_roundTrip`).

A packer that keeps a block has tried to expand it in place, but it has only looked at whether that
succeeds. That this is enough rests on three facts: the block represents its data
(`Cinematic.Packing.exists_represents_block`), expansion in place never succeeds with other data
(`Cinematic.Packing.unpack_of_unpackInPlace`), and what stands beside the block has no part in it
(`Cinematic.Packing.unpackInPlace_congr`).
-/

namespace Cinematic

/-- Filling up a string leaves it in front. -/
theorem Bytes.extract_resize {b : Bytes} {length : Nat} (le : b.size ≤ length) :
    Array.extract (b.resize length) 0 b.size = b := by
  rw [Bytes.resize, Array.extract_eq_self_of_le le, Array.extract_append_left, Array.extract_size]

@[simp] theorem Bytes.resize_size (b : Bytes) : b.resize b.size = b := by
  rw [Bytes.resize, Array.extract_size, Nat.sub_self]
  exact Array.append_empty

namespace Packing

variable (data : Bytes)

/-! ### What packing decides -/

/-- A block that is kept is shorter than its data, and its expansion in place has been tried. -/
structure Kept : Prop where
  eq_block : pack data = block data
  nonempty : data.size ≠ 0
  fits : data.size < 2 ^ 32
  shorter : (block data).size < data.size
  tried : expandsInPlace (block data) data.size = true

/-- Data are stored as they are, or a block is kept. -/
theorem pack_eq_or_kept : pack data = data ∨ Kept data := by
  rw [pack, plan]
  split
  · -- nothing to pack, or a length that the trailer cannot say
    exact Or.inl rfl
  · next possible =>
    rw [not_or, Nat.not_lt, maxLength] at possible
    obtain ⟨some, fits⟩ := possible
    have nonempty : data.size ≠ 0 := fun zero => some (by simpa [Array.isEmpty] using zero)
    dsimp only
    split
    · -- a block that is no shorter
      exact Or.inl rfl
    · next shorter =>
      split
      · next tried =>
        refine Or.inr ⟨?_, nonempty, by omega, by omega, tried⟩
        rw [pack, plan, if_neg (by rw [not_or, Nat.not_lt, maxLength]; exact ⟨some, fits⟩),
          if_neg shorter, if_pos tried]
        rfl
      · -- a block that does not expand in place
        exact Or.inl rfl

theorem exists_of_expandsInPlace {block : Bytes} {n : Nat} (h : expandsInPlace block n = true) :
    ∃ after, unpackInPlace (block.resize n) block.size n = (after, .ok ()) := by
  rw [expandsInPlace] at h
  split at h
  · next after expanded => exact ⟨after, expanded⟩
  · cases h

theorem trailerSize_le_block : trailerSize ≤ (block data).size := by
  rw [block, size_layout, trailerSize]
  omega

variable {data}

namespace Kept

variable (h : Kept data)

include h

/-- A block that is kept expands above a copy of itself. -/
theorem unpack_eq : unpack (block data) data.size = .ok data := by
  obtain ⟨bits, represents⟩ := exists_represents_block h.nonempty h.fits
  exact unpack_eq_ok_of_represents (trailerSize_le_block data) h.shorter represents

/-- **A block that is kept expands in every buffer**, and nothing beyond its data is touched. -/
theorem unpackInPlace_eq {buffer : Bytes} (roomy : data.size ≤ buffer.size)
    (begins : buffer.extract 0 (block data).size = block data) :
    unpackInPlace buffer (block data).size data.size =
      (data ++ buffer.extract data.size buffer.size, .ok ()) := by
  have trailed := trailerSize_le_block data
  obtain ⟨tried, succeeded⟩ := exists_of_expandsInPlace h.tried
  have roomy' : data.size ≤ ((block data).resize data.size).size := by rw [Bytes.size_resize]
  have begins' := Bytes.extract_resize (Nat.le_of_lt h.shorter)
  obtain ⟨after, expanded⟩ :=
    unpackInPlace_congr trailed h.shorter roomy' roomy begins' begins succeeded
  obtain ⟨data', same, -, rfl⟩ :=
    unpack_of_unpackInPlace trailed h.shorter roomy begins expanded
  rw [h.unpack_eq] at same
  cases same
  exact expanded

end Kept

/-! ### Round trips -/

theorem size_pack_le (data : Bytes) : (pack data).size ≤ data.size := by
  rcases pack_eq_or_kept data with stored | kept
  · rw [stored]
  · rw [kept.eq_block]
    exact Nat.le_of_lt kept.shorter

/-- A packed block of the length of its data is just these data. -/
theorem pack_eq_self (same : (pack data).size = data.size) : pack data = data := by
  rcases pack_eq_or_kept data with stored | kept
  · exact stored
  · rw [kept.eq_block] at same
    exact absurd same (Nat.ne_of_lt kept.shorter)

theorem kept_of_size_lt (shorter : (pack data).size < data.size) : Kept data := by
  rcases pack_eq_or_kept data with stored | kept
  · rw [stored] at shorter
    exact absurd shorter (Nat.lt_irrefl _)
  · exact kept

theorem unpack_pack (data : Bytes) : unpack (pack data) data.size = .ok data := by
  rcases pack_eq_or_kept data with stored | kept
  · rw [stored, unpack, if_pos rfl]
  · rw [kept.eq_block]
    exact kept.unpack_eq

theorem unpackInPlace_pack {buffer : Bytes} (shorter : (pack data).size < data.size)
    (roomy : data.size ≤ buffer.size) (begins : buffer.extract 0 (pack data).size = pack data) :
    unpackInPlace buffer (pack data).size data.size =
      (data ++ buffer.extract data.size buffer.size, .ok ()) := by
  have kept := kept_of_size_lt shorter
  rw [kept.eq_block] at begins ⊢
  exact kept.unpackInPlace_eq roomy begins

/-- A packed block expands in a buffer of just the length of its data, filled up behind the block. -/
theorem unpackInPlace_resize_pack (shorter : (pack data).size < data.size) :
    unpackInPlace ((pack data).resize data.size) (pack data).size data.size = (data, .ok ()) := by
  have roomy : data.size ≤ ((pack data).resize data.size).size := by rw [Bytes.size_resize]
  have begins := Bytes.extract_resize (Nat.le_of_lt shorter)
  rw [unpackInPlace_pack shorter roomy begins, Bytes.size_resize,
    Array.extract_empty_of_stop_le_start (Nat.le_refl _), Array.append_empty]

theorem verify_pack (data : Bytes) : verify (pack data) data = .ok () := by
  rw [verify]
  by_cases shorter : (pack data).size < data.size
  · rw [if_pos shorter, unpackInPlace_resize_pack shorter]
    exact if_pos rfl
  · have stored := pack_eq_self (Nat.le_antisymm (size_pack_le data) (Nat.le_of_not_lt shorter))
    rw [if_neg shorter, stored, Bytes.resize_size]
    exact if_pos rfl

/-- **What has been packed expands to what it was.** A packed block is no longer than its data. If it
is as long it is the data themselves; if it is shorter it expands in every buffer that begins with it
and has room for the data, and nothing beyond the data is touched. -/
theorem pack_roundTrip (data : Bytes) :
    (pack data).size ≤ data.size ∧
      ((pack data).size = data.size → pack data = data) ∧
      unpack (pack data) data.size = .ok data ∧
      ((pack data).size < data.size → ∀ buffer : Bytes, data.size ≤ buffer.size →
        buffer.extract 0 (pack data).size = pack data →
        unpackInPlace buffer (pack data).size data.size =
          (data ++ buffer.extract data.size buffer.size, .ok ())) ∧
      verify (pack data) data = .ok () :=
  ⟨size_pack_le data, pack_eq_self, unpack_pack data,
    fun shorter _ roomy begins => unpackInPlace_pack shorter roomy begins, verify_pack data⟩

/-- Data that become shorter, expanded in a buffer with other bytes beside their block. -/
theorem pack_roundTrip_beside :
    let data : Bytes := Array.replicate 30 7 ++ #[1, 2, 3, 4, 1, 2, 3, 4]
    let buffer : Bytes := pack data ++ Array.replicate 22 0xaa
    (pack data).size < data.size ∧ data.size ≤ buffer.size ∧
      buffer.extract 0 (pack data).size = pack data ∧
      unpackInPlace buffer (pack data).size data.size =
        (data ++ buffer.extract data.size buffer.size, .ok ()) := by
  intro data buffer
  have shorter : (pack data).size < data.size := by decide +kernel
  have roomy : data.size ≤ buffer.size := by decide +kernel
  have begins : buffer.extract 0 (pack data).size = pack data := by
    rw [Array.extract_append_left, Array.extract_size]
  exact ⟨shorter, roomy, begins, (pack_roundTrip data).2.2.2.1 shorter buffer roomy begins⟩

end Packing

end Cinematic
