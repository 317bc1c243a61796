import Mathlib.Tactic.Linarith
import Cinematic.Packing.Unpack
import Cinematic.Proofs.Computation
import Cinematic.Proofs.Packing.Format

/-!
# The progress of an expansion

An expansion above a copy of its block, seen through what it has done: the **bits** it has read
and the **bytes** it has emitted. `Cinematic.Packing.Progress` ties both to the state, and nothing
after this module looks at the state any more.

For the reader the state amounts to one equation: the bits read, the bits left in the chunk and the
words not yet fetched make up the string of the block, in this order. This holds whatever else is in
the buffer, as long as the unread part of the block is as it was (`Cinematic.Packing.Reading`). For the
writer, the data stand at the end of the buffer and the block below them is as it was.

Each operation has two lemmas. The one ending in `_sound` says what has been read and written when it
succeeds; the one ending in `_complete` says that it succeeds on a block that has the bits for it.
-/

namespace Cinematic.Packing

open Unpacker

/-- How far a block has been read: `bits` have been, and for them `k` words below the trailer. -/
structure WordsRead (block : Bytes) (bits : List Bool) (k : Nat) (u : Unpacker) : Prop where
  source : u.source + trailerSize + 4 * k = block.size
  check : u.check = checkSumOf block k
  string : bits ++ (chunkBits u.chunk ++ ((dataWords block).drop k).flatMap wordBits)
    = bitString block

/-- **Reading on** from a state `u`: only the reader's part of the state has changed since, what is
unread is as it was, and `bits` of the block have been read in all. -/
structure Reading (block : Bytes) (u : Unpacker) (bits : List Bool) (v : Unpacker) : Prop where
  frame : v = { u with source := v.source, check := v.check, chunk := v.chunk }
  unread : ∀ i < v.source, v.buffer.byteAt i = block.byteAt i
  words : ∃ k, WordsRead block bits k v

/-- **How far an expansion has come**: `bits` have been read, and of `n` bytes `out` have been
emitted. -/
structure Progress (block : Bytes) (n : Nat) (bits : List Bool) (out : List UInt8)
    (u : Unpacker) : Prop where
  start : u.start = block.size
  size : u.buffer.size = block.size + n
  target : u.target + out.length = block.size + n
  remaining : u.remaining + out.length = n
  unread : ∀ i < block.size, u.buffer.byteAt i = block.byteAt i
  written : u.buffer.toList.drop u.target = out
  words : ∃ k, WordsRead block bits k u

variable {block : Bytes} {n : Nat} {bits : List Bool} {out : List UInt8} {u v w : Unpacker}

/-! ### Reading -/

/-- The number of words read is the number of words that the bits reach into: no word is fetched before
its first bit is needed. -/
theorem WordsRead.eq_wordsReached {k : Nat} (h : WordsRead block bits k u) :
    k = wordsReached block bits.length := by
  have total := congrArg List.length h.string
  have short := length_chunkBits_lt u.chunk
  have source := h.source
  simp only [bitString, List.length_append, length_flatMap_wordBits, List.length_drop,
    length_dataWords] at total
  simp only [trailerSize] at source
  simp only [wordsReached]
  omega

theorem Reading.begins (h : Reading block u bits v) : bits <+: bitString block := by
  obtain ⟨k, read⟩ := h.words
  exact ⟨_, read.string⟩

/-- Fetching takes the words of a block that is as it was, one after the other from its end. -/
theorem fetch_tailWord {k : Nat} (intact : ∀ i < u.source, u.buffer.byteAt i = block.byteAt i)
    (source : u.source + 4 * k = block.size) (enough : 4 ≤ u.source) :
    fetch u = .ok (tailWord block k) { u with source := u.source - 4 } := by
  have place : block.size - 4 * (k + 1) = u.source - 4 := by omega
  have same : u.buffer.wordAt (u.source - 4) 4 = block.wordAt (u.source - 4) 4 :=
    Bytes.wordAt_congr fun i hi => intact _ (by omega)
  rw [fetch, if_pos enough, same, tailWord, place]

/-- Reading a bit either takes the next one of the string or fails because there is none. -/
theorem bit_reading (h : Reading block u bits v) :
    (∃ b w, bit v = .ok b w ∧ Reading block u (bits ++ [b]) w) ∨
      (bit v = .error .sourceExhausted v ∧ bits = bitString block) := by
  obtain ⟨k, read⟩ := h.words
  have source := read.source
  simp only [trailerSize] at source
  by_cases spent : v.chunk >>> 1 = 0
  · have string := read.string
    rw [chunkBits_of_spent spent, List.nil_append] at string
    by_cases enough : 4 ≤ v.source
    · -- A new word: its first bit is spent at once.
      have next : v.source + 4 * (k + 3) = block.size := by omega
      have inside : k < block.size / 4 - 3 := by omega
      refine Or.inl ⟨_, _, by rw [bit, if_pos spent, fetch_tailWord h.unread next enough], ?_⟩
      refine ⟨?_, fun i (hi : i < v.source - 4) => h.unread i (by omega), k + 1, ?_, ?_, ?_⟩
      · rw [h.frame]
      · change v.source - 4 + trailerSize + 4 * (k + 1) = block.size
        simp only [trailerSize]
        omega
      · change v.check ^^^ _ = _
        rw [checkSumOf_succ inside, read.check]
      · rw [drop_dataWords inside, List.flatMap_cons, wordBits_eq_cons] at string
        simpa using string
    · -- No word is left.
      refine Or.inr ⟨by rw [bit, if_pos spent, fetch, if_neg enough], ?_⟩
      rw [List.drop_eq_nil_of_le (by rw [length_dataWords]; omega)] at string
      simpa using string
  · -- A bit at hand.
    refine Or.inl ⟨_, _, by rw [bit, if_neg spent], ?_⟩
    refine ⟨by rw [h.frame], h.unread, k, read.source, read.check, ?_⟩
    have string := read.string
    rw [chunkBits_of_not_spent spent] at string
    simpa using string

namespace Reading

theorem bit_sound {b : Bool} (h : Reading block u bits v) (run : bit v = .ok b w) :
    Reading block u (bits ++ [b]) w := by
  rcases bit_reading h with ⟨b', w', run', next⟩ | ⟨run', -⟩
  · rw [run] at run'
    cases run'
    exact next
  · rw [run] at run'
    cases run'

theorem bit_complete {b : Bool} (h : Reading block u bits v)
    (more : bits ++ [b] <+: bitString block) :
    ∃ w, bit v = .ok b w ∧ Reading block u (bits ++ [b]) w := by
  rcases bit_reading h with ⟨b', w, run, next⟩ | ⟨-, all⟩
  · have same : bits ++ [b'] = bits ++ [b] :=
      (List.prefix_of_prefix_length_le next.begins more (by simp)).eq_of_length (by simp)
    cases List.append_cancel_left same
    exact ⟨w, run, next⟩
  · have longer := more.length_le
    rw [← all, List.length_append, List.length_singleton] at longer
    omega

/-- When the whole string has been read there is no further bit. -/
theorem bit_exhausted (h : Reading block u (bitString block) v) :
    bit v = .error .sourceExhausted v := by
  rcases bit_reading h with ⟨b, w, -, next⟩ | ⟨run, -⟩
  · have longer := next.begins.length_le
    rw [List.length_append, List.length_singleton] at longer
    omega
  · exact run

end Reading

/-! ### Fields -/

/-- Only the bits of the field matter. -/
theorem fieldBits_congr {count a b : Nat} (same : ∀ i < count, a.testBit i = b.testBit i) :
    fieldBits count a = fieldBits count b := by
  induction count with
  | zero => rfl
  | succ count ih =>
    rw [fieldBits, fieldBits, same count (Nat.lt_succ_self count),
      ih fun i less => same i (Nat.lt_succ_of_lt less)]

theorem fieldBits_mod (count value : Nat) :
    fieldBits count (value % 2 ^ count) = fieldBits count value :=
  fieldBits_congr fun i less => by rw [Nat.testBit_mod_two_pow, decide_eq_true less, Bool.true_and]

theorem fieldBits_succ_of_lt {count v : Nat} (b : Bool) (small : v < 2 ^ count) :
    fieldBits (count + 1) (b.toNat * 2 ^ count + v) = b :: fieldBits count v := by
  have above : (b.toNat * 2 ^ count + v).testBit count = b := by
    rw [Nat.mul_comm, Nat.testBit_two_pow_mul_add _ small, if_neg (Nat.lt_irrefl count),
      Nat.sub_self]
    cases b <;> rfl
  have below : fieldBits count (b.toNat * 2 ^ count + v) = fieldBits count v :=
    fieldBits_congr fun i less => by
      rw [Nat.mul_comm, Nat.testBit_two_pow_mul_add _ small, if_pos less]
  rw [fieldBits, above, below]

/-- A number that fits its field is its first bit, above a number that fits the rest. -/
theorem exists_bit_add {count v : Nat} (small : v < 2 ^ (count + 1)) :
    ∃ (b : Bool) (w : Nat), w < 2 ^ count ∧ v = b.toNat * 2 ^ count + w := by
  rw [Nat.pow_succ] at small
  by_cases high : 2 ^ count ≤ v
  · exact ⟨true, v - 2 ^ count, by omega, by rw [Bool.toNat_true]; omega⟩
  · exact ⟨false, v, by omega, by simp⟩

namespace Reading

theorem fieldOn_sound {count read value : Nat} (h : Reading block u bits v)
    (run : fieldOn count read v = .ok value w) :
    ∃ low < 2 ^ count, value = read * 2 ^ count + low ∧
      Reading block u (bits ++ fieldBits count low) w := by
  induction count generalizing bits read v with
  | zero =>
    cases run
    exact ⟨0, by simp, by simp, by simpa [fieldBits] using h⟩
  | succ count ih =>
    obtain ⟨b, v', first, run⟩ := bind_eq_ok.1 run
    obtain ⟨low, small, rfl, next⟩ := ih (h.bit_sound first) run
    refine ⟨b.toNat * 2 ^ count + low, ?_, by ring, ?_⟩
    · have := b.toNat_le
      rw [Nat.pow_succ]
      nlinarith
    · rw [fieldBits_succ_of_lt b small]
      simpa using next

theorem fieldOn_complete {count value : Nat} (read : Nat) (h : Reading block u bits v)
    (small : value < 2 ^ count) (more : bits ++ fieldBits count value <+: bitString block) :
    ∃ w, fieldOn count read v = .ok (read * 2 ^ count + value) w ∧
      Reading block u (bits ++ fieldBits count value) w := by
  induction count generalizing bits value read v with
  | zero =>
    obtain rfl : value = 0 := by simpa using small
    exact ⟨v, by simp [fieldOn, pure, EStateM.pure], by simpa [fieldBits] using h⟩
  | succ count ih =>
    obtain ⟨b, low, fits, rfl⟩ := exists_bit_add small
    rw [fieldBits_succ_of_lt b fits, List.append_cons] at more ⊢
    obtain ⟨v', first, next⟩ := h.bit_complete ((List.prefix_append _ _).trans more)
    obtain ⟨w, rest, last⟩ := ih (2 * read + b.toNat) next fits more
    refine ⟨w, bind_eq_ok.2 ⟨b, v', first, ?_⟩, last⟩
    rw [rest]
    congr 1
    ring

/-- A field that is read holds a number of its width. -/
theorem field_sound {count value : Nat} (h : Reading block u bits v)
    (run : field count v = .ok value w) :
    value < 2 ^ count ∧ Reading block u (bits ++ fieldBits count value) w := by
  obtain ⟨low, small, rfl, next⟩ := h.fieldOn_sound run
  rw [Nat.zero_mul, Nat.zero_add]
  exact ⟨small, next⟩

theorem field_complete {count value : Nat} (h : Reading block u bits v)
    (small : value < 2 ^ count) (more : bits ++ fieldBits count value <+: bitString block) :
    ∃ w, field count v = .ok value w ∧ Reading block u (bits ++ fieldBits count value) w := by
  obtain ⟨w, run, next⟩ := h.fieldOn_complete 0 small more
  rw [Nat.zero_mul, Nat.zero_add] at run
  exact ⟨w, run, next⟩

end Reading

/-! ### Reading in an expansion -/

theorem Progress.reading (h : Progress block n bits out u) : Reading block u bits u := by
  obtain ⟨k, read⟩ := h.words
  have source := read.source
  exact ⟨rfl, fun i hi => h.unread i (by omega), k, read⟩

/-- **Reading is progress**: it touches neither the data nor the block. -/
theorem Reading.progress {bits' : List Bool} (h : Reading block u bits' v)
    (before : Progress block n bits out u) : Progress block n bits' out v := by
  have words := h.words
  rw [h.frame] at words ⊢
  exact { before with words }

theorem Progress.begins (h : Progress block n bits out u) : bits <+: bitString block :=
  h.reading.begins

theorem bit_sound {b : Bool} (h : Progress block n bits out u) (run : bit u = .ok b v) :
    Progress block n (bits ++ [b]) out v :=
  (h.reading.bit_sound run).progress h

theorem bit_complete {b : Bool} (h : Progress block n bits out u)
    (more : bits ++ [b] <+: bitString block) :
    ∃ v, bit u = .ok b v ∧ Progress block n (bits ++ [b]) out v := by
  obtain ⟨v, run, next⟩ := h.reading.bit_complete more
  exact ⟨v, run, next.progress h⟩

theorem field_sound {count value : Nat} (h : Progress block n bits out u)
    (run : field count u = .ok value v) :
    value < 2 ^ count ∧ Progress block n (bits ++ fieldBits count value) out v := by
  obtain ⟨small, next⟩ := h.reading.field_sound run
  exact ⟨small, next.progress h⟩

theorem field_complete {count value : Nat} (h : Progress block n bits out u)
    (small : value < 2 ^ count) (more : bits ++ fieldBits count value <+: bitString block) :
    ∃ v, field count u = .ok value v ∧
      Progress block n (bits ++ fieldBits count value) out v := by
  obtain ⟨v, run, next⟩ := h.reading.field_complete small more
  exact ⟨v, run, next.progress h⟩

/-! ### Writing -/

/-- There is room for a byte exactly as long as data are missing. -/
theorem place_eq (h : Progress block n bits out u) (room : out.length < n) :
    place u = .ok (u.target - 1) u := by
  obtain ⟨k, read⟩ := h.words
  have source := read.source
  have target := h.target
  have remaining := h.remaining
  have start := h.start
  simp only [trailerSize] at source
  exact if_pos ⟨by omega, by omega, by omega, by omega⟩

theorem place_sound {pos : Nat} (h : Progress block n bits out u) (run : place u = .ok pos v) :
    pos = u.target - 1 ∧ v = u ∧ out.length < n := by
  have remaining := h.remaining
  unfold place at run
  split at run
  · next room =>
    cases run
    exact ⟨rfl, rfl, by omega⟩
  · cases run

/-- **Writing a byte** puts it before those written so far. -/
theorem Progress.write (h : Progress block n bits out u) (room : out.length < n) (b : UInt8) :
    Progress block n bits (b :: out)
      { u with
        buffer := u.buffer.setIfInBounds (u.target - 1) b
        target := u.target - 1
        remaining := u.remaining - 1 } := by
  have target := h.target
  have remaining := h.remaining
  have size := h.size
  refine { h with
    size := by simpa using h.size
    target := ?_
    remaining := ?_
    unread := fun i hi => ?_
    written := ?_
    words := ?_ }
  · change u.target - 1 + (b :: out).length = block.size + n
    rw [List.length_cons]
    omega
  · change u.remaining - 1 + (b :: out).length = n
    rw [List.length_cons]
    omega
  · -- the whole block lies below the place, not only its unread part
    rw [Bytes.byteAt_setIfInBounds_of_ne (by omega)]
    exact h.unread i hi
  · have inside : u.target - 1 < u.buffer.toList.length := by
      rw [Array.length_toList]
      omega
    change (u.buffer.setIfInBounds (u.target - 1) b).toList.drop (u.target - 1) = b :: out
    rw [Array.toList_setIfInBounds, List.drop_eq_getElem_cons (by simpa using inside),
      List.getElem_set_self, List.drop_set_of_lt (by omega), Nat.sub_add_cancel (by omega),
      h.written]
  · obtain ⟨k, read⟩ := h.words
    exact ⟨k, read.source, read.check, read.string⟩

/-- The byte so many places above the next one is the byte emitted as long ago. -/
theorem earlier_eq (h : Progress block n bits out u) (room : out.length < n) {distance : Nat}
    (fits : 1 ≤ distance ∧ distance ≤ out.length) :
    earlier (u.target - 1) distance u = .ok (out.getD (distance - 1) 0) u := by
  have target := h.target
  have size := h.size
  have place : u.target - 1 + distance = u.target + (distance - 1) := by omega
  have same : u.buffer.byteAt (u.target - 1 + distance) = out.getD (distance - 1) 0 := by
    rw [Bytes.byteAt_eq_getD, place, ← h.written, List.getD_eq_getElem?_getD,
      List.getD_eq_getElem?_getD, List.getElem?_drop]
  rw [earlier, if_neg (by omega), same]

theorem earlier_sound (h : Progress block n bits out u) {distance : Nat} {b : UInt8}
    (run : earlier (u.target - 1) distance u = .ok b v) :
    1 ≤ distance ∧ distance ≤ out.length := by
  have target := h.target
  have size := h.size
  unfold earlier at run
  split at run
  · cases run
  · omega

end Cinematic.Packing
