import Mathlib.Algebra.Group.Nat.Defs
import Mathlib.Data.List.GetD
import Cinematic.Bytes

/-!
# Numbers in byte strings

The two directions of the rule that numbers are big-endian, put together: **reading a number
where it was written gives it back**, up to the width it was written in
(`Cinematic.Bytes.wordAt_bigEndian`). Around it stand the small facts that say which bytes an
operation leaves alone, all of them through `Cinematic.Bytes.byteAt`, so that nothing else has to
look at how a string is stored.
-/

namespace Cinematic.Bytes

variable {a b : Bytes} {i j : Nat}

/-! ### Single bytes -/

theorem byteAt_toArray (l : List UInt8) (i : Nat) : byteAt l.toArray i = l.getD i 0 := by
  simp [byteAt, Array.getD_eq_getD_getElem?, List.getD_eq_getElem?_getD]

theorem byteAt_eq_getD (b : Bytes) (i : Nat) : b.byteAt i = b.toList.getD i 0 := by
  rw [← byteAt_toArray]

theorem byteAt_append_left (h : i < a.size) : byteAt (a ++ b) i = a.byteAt i := by
  simp [byteAt, Array.getD_eq_getD_getElem?, Array.getElem?_append_left h]

theorem byteAt_append_right (h : a.size ≤ i) : byteAt (a ++ b) i = b.byteAt (i - a.size) := by
  simp [byteAt, Array.getD_eq_getD_getElem?, Array.getElem?_append_right h]

theorem byteAt_of_size_le (h : b.size ≤ i) : b.byteAt i = 0 := by
  simp [byteAt, h]

theorem byteAt_extract {start stop : Nat} (h : i < stop - start) :
    byteAt (b.extract start stop) i = b.byteAt (start + i) := by
  simp only [byteAt, Array.getD_eq_getD_getElem?, Array.getElem?_extract]
  split
  · rfl
  · rw [Array.getElem?_eq_none (by omega)]

theorem byteAt_setIfInBounds_self (h : i < b.size) (x : UInt8) :
    byteAt (b.setIfInBounds i x) i = x := by
  simp [byteAt, Array.getD_eq_getD_getElem?, h]

theorem byteAt_setIfInBounds_of_ne (h : i ≠ j) (x : UInt8) :
    byteAt (b.setIfInBounds i x) j = b.byteAt j := by
  simp [byteAt, Array.getD_eq_getD_getElem?, Array.getElem?_setIfInBounds_ne h]

/-- Strings of the same length with the same bytes are the same. -/
theorem ext_byteAt (hsize : a.size = b.size) (h : ∀ i < a.size, a.byteAt i = b.byteAt i) :
    a = b := by
  refine Array.ext hsize fun i hia hib => ?_
  rw [← byteAt_eq_getElem hia, ← byteAt_eq_getElem hib]
  exact h i hia

/-! ### Numbers -/

theorem wordAt_one (b : Bytes) (i : Nat) : wordAt b i 1 = (b.byteAt i).toNat := by
  rw [wordAt_succ, wordAt_zero, Nat.zero_mul, Nat.zero_add, Nat.add_zero]

theorem wordAt_lt (b : Bytes) (i width : Nat) : wordAt b i width < 256 ^ width := by
  induction width with
  | zero => exact Nat.one_pos
  | succ width ih =>
    have digit : (b.byteAt (i + width)).toNat < 256 := (b.byteAt (i + width)).toNat_lt
    rw [wordAt_succ, Nat.pow_succ]
    omega

/-- A number depends on the bytes it is read from and on no others. -/
theorem wordAt_congr {width : Nat} (h : ∀ k < width, a.byteAt (i + k) = b.byteAt (j + k)) :
    wordAt a i width = wordAt b j width := by
  induction width with
  | zero => rfl
  | succ width ih =>
    rw [wordAt_succ, wordAt_succ, ih fun k hk => h k (by omega), h width (by omega)]

/-- A number read from a string begun later. -/
theorem wordAt_append_right (before after : List UInt8) (i width : Nat) :
    wordAt (before ++ after).toArray (before.length + i) width = wordAt after.toArray i width := by
  refine wordAt_congr fun k _ => ?_
  rw [byteAt_toArray, byteAt_toArray, List.getD_append_right _ _ _ _ (by omega)]
  congr 1
  omega

/-- **Reading a number where it was written** gives its remainder at the width it was written in. -/
theorem wordAt_bigEndian (width n : Nat) (after : List UInt8) :
    wordAt (bigEndian width n ++ after).toArray 0 width = n % 256 ^ width := by
  induction width generalizing n after with
  | zero => simp [wordAt_zero, Nat.mod_one]
  | succ width ih =>
    have last : byteAt (bigEndian (width + 1) n ++ after).toArray (0 + width) = UInt8.ofNat n := by
      rw [byteAt_toArray, bigEndian, List.append_assoc,
        List.getD_append_right _ _ _ _ (by simp)]
      simp
    rw [wordAt_succ, last, bigEndian, List.append_assoc, ih, UInt8.toNat_ofNat']
    calc n / 256 % 256 ^ width * 256 + n % 2 ^ 8
        = n % 256 + 256 * (n / 256 % 256 ^ width) := by omega
      _ = n % (256 * 256 ^ width) := (Nat.mod_mul).symm
      _ = n % 256 ^ (width + 1) := by rw [Nat.pow_succ, Nat.mul_comm]

/-- A number written behind other bytes. -/
theorem wordAt_append_bigEndian (before after : List UInt8) (width n : Nat) :
    wordAt (before ++ (bigEndian width n ++ after)).toArray before.length width
      = n % 256 ^ width := by
  have moved := wordAt_append_right before (bigEndian width n ++ after) 0 width
  rw [Nat.add_zero] at moved
  rw [moved, wordAt_bigEndian]

/-! ### Slices -/

theorem toList_slice_add (b : Bytes) (i m n : Nat) :
    (b.slice i (m + n)).toList = (b.slice i m).toList ++ (b.slice (i + m) n).toList := by
  simp only [slice, ← Array.toList_append, Array.extract_append_extract]
  congr 2
  · omega
  · omega

/-- Writing a number that was read gives the bytes at the places it was read from. -/
theorem bigEndian_wordAt_eq_map (b : Bytes) (i width : Nat) :
    bigEndian width (wordAt b i width) = (List.range width).map fun k => b.byteAt (i + k) := by
  induction width with
  | zero => rfl
  | succ width ih =>
    have digit : (b.byteAt (i + width)).toNat < 256 := (b.byteAt (i + width)).toNat_lt
    rw [wordAt_succ, bigEndian, List.range_succ, List.map_append, ← ih, List.map_singleton]
    congr 2
    · omega
    · refine UInt8.toNat_inj.1 ?_
      rw [UInt8.toNat_ofNat']
      omega

/-- **Writing a number that was read** gives the bytes it was read from. -/
theorem bigEndian_wordAt {width : Nat} (inside : i + width ≤ b.size) :
    bigEndian width (wordAt b i width) = (b.slice i width).toList := by
  rw [bigEndian_wordAt_eq_map]
  refine List.ext_getElem ?_ fun k short within => ?_
  · rw [List.length_map, List.length_range, Array.length_toList, slice, Array.size_extract]
    omega
  · rw [List.length_map, List.length_range] at short
    rw [List.getElem_map, List.getElem_range, byteAt_eq_getElem (by omega), Array.getElem_toList]
    exact (Array.getElem_extract _).symm

end Cinematic.Bytes
