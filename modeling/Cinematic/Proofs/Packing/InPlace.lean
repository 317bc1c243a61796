import Cinematic.Proofs.Packing.Exactness
import Cinematic.Proofs.Packing.LockStep

/-!
# Expansion in place

What expanding a block in its own buffer has to do with expanding it above a copy of itself: it
yields **the same data or refuses**, and the only refusal of its own is an overrun
(`Cinematic.Packing.unpackInPlace_refines_unpack`). What the buffer holds beside the block is of no
consequence (`Cinematic.Packing.unpackInPlace_congr`), so trying an expansion once, in a buffer
filled up with zeros, settles it for every buffer.

Both statements are runs in lock step, the first at the distance of a block's length and the second
at no distance at all.
-/

namespace Cinematic.Packing

open Unpacker

variable {block buffer : Bytes} {n : Nat}

/-! ### The runs that are compared -/

/-- The state that an expansion in place begins in. -/
def loaded (buffer : Bytes) (packed n : Nat) : Unpacker :=
  ⟨buffer.extract 0 n, packed, (buffer.extract 0 n).size, 0, 0, 0, 0⟩

/-- What a run leaves in a buffer of which it was given the first `n` bytes. -/
def outcome (buffer : Bytes) (n : Nat) :
    EStateM.Result UnpackError Unpacker Unit → Bytes × Except UnpackError Unit
  | .ok _ u => (u.buffer ++ buffer.extract n buffer.size, .ok ())
  | .error e u => (u.buffer ++ buffer.extract n buffer.size, .error e)

/-- Expanding in place means running the expansion in the first bytes of the buffer. -/
theorem unpackInPlace_eq {packed : Nat} (trailed : trailerSize ≤ packed) (shorter : packed ≤ n)
    (roomy : n ≤ buffer.size) :
    unpackInPlace buffer packed n = outcome buffer n (run (loaded buffer packed n)) := by
  rw [unpackInPlace, if_neg (by omega), if_neg (by omega), if_neg (by omega)]
  cases result : run (loaded buffer packed n) with
  | ok a u =>
    rw [expand_of_ok result]
    rfl
  | error e u =>
    rw [expand_of_error result]
    rfl

/-- A buffer begins with a block if its first bytes are those of the block. -/
theorem byteAt_of_extract (h : buffer.extract 0 block.size = block) {i : Nat} (inside : i < block.size) :
    buffer.byteAt i = block.byteAt i := by
  conv => rhs; rw [← h]
  rw [Bytes.byteAt_extract (by omega), Nat.zero_add]

theorem byteAt_loaded (shorter : block.size ≤ n) (h : buffer.extract 0 block.size = block) {i : Nat}
    (inside : i < block.size) :
    Bytes.byteAt (buffer.extract 0 n) i = block.byteAt i := by
  rw [Bytes.byteAt_extract (by omega), Nat.zero_add, byteAt_of_extract h inside]

/-- The run in the buffer of a block and the run above a copy of it are in step. -/
theorem loaded_inStep_fresh (shorter : block.size ≤ n) (roomy : n ≤ buffer.size)
    (h : buffer.extract 0 block.size = block) :
    InStep (Tracks block.size 0) (run (loaded buffer block.size n)) (run (fresh block n)) := by
  refine run_inStep ?_ fun i inside => ?_
  · rw [Array.size_append, Array.size_replicate, Array.size_extract]
    omega
  · rw [Bytes.byteAt_append_left inside, byteAt_loaded shorter h inside]

/-- The runs in two buffers that begin with the same block are in step. -/
theorem loaded_inStep_loaded {other : Bytes} (shorter : block.size ≤ n) (roomy : n ≤ buffer.size)
    (roomy' : n ≤ other.size) (h : buffer.extract 0 block.size = block)
    (h' : other.extract 0 block.size = block) :
    InStep (Tracks 0 0) (run (loaded buffer block.size n)) (run (loaded other block.size n)) := by
  refine run_inStep ?_ fun i inside => ?_
  · rw [Array.size_extract, Array.size_extract]
    omega
  · rw [byteAt_loaded shorter h inside, byteAt_loaded shorter h' inside]

/-- When nothing is left to write, the lower run has in its whole buffer what the upper run has above
the block. -/
theorem Tracks.extract_eq {shift : Nat} {u v : Unpacker} (h : Tracks shift 0 u v)
    (finished : v.remaining = 0) : v.buffer.extract shift v.buffer.size = u.buffer := by
  have size := h.size
  have target := h.floor
  have remaining := h.remaining
  refine Bytes.ext_byteAt ?_ fun i inside => ?_
  · rw [Array.size_extract]
    omega
  · rw [Array.size_extract] at inside
    rw [Bytes.byteAt_extract (by omega), Nat.add_comm, h.written i (by omega) (by omega)]

/-! ### What expansion in place yields -/

/-- Data expanded in place are the data of the block, and the rest of the buffer stays. -/
theorem unpack_of_unpackInPlace {after : Bytes} (trailed : trailerSize ≤ block.size)
    (shorter : block.size < n) (roomy : n ≤ buffer.size)
    (begins : buffer.extract 0 block.size = block)
    (expanded : unpackInPlace buffer block.size n = (after, .ok ())) :
    ∃ data : Bytes, unpack block n = .ok data ∧ data.size = n ∧
      after = data ++ buffer.extract n buffer.size := by
  have step := loaded_inStep_fresh (Nat.le_of_lt shorter) roomy begins
  rw [unpackInPlace_eq trailed (Nat.le_of_lt shorter) roomy] at expanded
  rw [unpack_eq trailed shorter]
  cases lower : run (loaded buffer block.size n) with
  | error e u =>
    rw [lower] at expanded
    cases expanded
  | ok a u =>
    rw [lower] at expanded step
    cases upper : run (fresh block n) with
    | error e v =>
      rw [upper] at step
      cases step
    | ok a v =>
      rw [upper] at step
      cases step with
      | ok _ tracks =>
      cases expanded
      obtain ⟨bits, data, length, -, last⟩ := run_sound trailed upper (by omega)
      have finished : v.remaining = 0 := by
        have := last.remaining
        omega
      have same := tracks.extract_eq finished
      refine ⟨u.buffer, congrArg _ same, ?_, rfl⟩
      rw [← same, last.extract_eq length, List.size_toArray, length]

/-- **What stands beside a block does not matter** when it is expanded in place. -/
theorem unpackInPlace_congr {other after : Bytes} (trailed : trailerSize ≤ block.size)
    (shorter : block.size < n) (roomy : n ≤ buffer.size) (roomy' : n ≤ other.size)
    (begins : buffer.extract 0 block.size = block) (begins' : other.extract 0 block.size = block)
    (expanded : unpackInPlace buffer block.size n = (after, .ok ())) :
    ∃ after', unpackInPlace other block.size n = (after', .ok ()) := by
  have step := loaded_inStep_loaded (Nat.le_of_lt shorter) roomy roomy' begins begins'
  rw [unpackInPlace_eq trailed (Nat.le_of_lt shorter) roomy] at expanded
  rw [unpackInPlace_eq trailed (Nat.le_of_lt shorter) roomy']
  cases lower : run (loaded buffer block.size n) with
  | error e u =>
    rw [lower] at expanded
    cases expanded
  | ok a u =>
    rw [lower] at step
    generalize run (loaded other block.size n) = r at step ⊢
    cases step with
    | ok _ tracks => exact ⟨_, rfl⟩

/-- **Expansion in place refines expansion above a copy.** It yields the same data; any refusal that
is no overrun is a refusal of the other, for the same reason; and what the other refuses it refuses
too. -/
theorem unpackInPlace_refines_unpack (shorter : block.size < n) (roomy : n ≤ buffer.size)
    (begins : buffer.extract 0 block.size = block) :
    let inPlace := unpackInPlace buffer block.size n
    (inPlace.2 = .ok () → unpack block n = .ok (inPlace.1.extract 0 n)) ∧
      (∀ e, inPlace.2 = .error e → e ≠ .outputOverrun → unpack block n = .error e) ∧
      ∀ e, unpack block n = .error e →
        inPlace.2 = .error e ∨ inPlace.2 = .error .outputOverrun := by
  intro inPlace
  by_cases trailed : trailerSize ≤ block.size
  · have step := loaded_inStep_fresh (Nat.le_of_lt shorter) roomy begins
    have lower : inPlace = outcome buffer n (run (loaded buffer block.size n)) :=
      unpackInPlace_eq trailed (Nat.le_of_lt shorter) roomy
    refine ⟨fun ok => ?_, ?_⟩
    · have succeeded : unpackInPlace buffer block.size n = (inPlace.1, .ok ()) := Prod.ext rfl ok
      obtain ⟨data, expanded, size, after⟩ :=
        unpack_of_unpackInPlace trailed shorter roomy begins succeeded
      rw [expanded, after, ← size, Array.extract_append_left, Array.extract_size]
    · rw [lower, unpack_eq trailed shorter]
      generalize run (loaded buffer block.size n) = r at step ⊢
      generalize run (fresh block n) = s at step ⊢
      cases step with
      | ok a tracks =>
        -- neither run has failed
        refine ⟨fun e failed => ?_, fun e failed => ?_⟩
        · cases failed
        · cases failed
      | error e u v =>
        refine ⟨fun e' failed _ => ?_, fun e' failed => ?_⟩
        · cases failed
          rfl
        · cases failed
          exact Or.inl rfl
      | overrun u s =>
        refine ⟨fun e failed other => ?_, fun e failed => Or.inr rfl⟩
        cases failed
        exact absurd rfl other
  · -- a block without a trailer is refused before either run begins
    have small : block.size < trailerSize := Nat.lt_of_not_le trailed
    have lower : inPlace = (buffer, .error (.truncated block.size)) := if_pos small
    have upper : unpack block n = .error (.truncated block.size) := by
      rw [unpack, if_neg (by omega), if_pos small]
    rw [lower, upper]
    refine ⟨fun ok => ?_, fun e failed _ => ?_, fun e failed => Or.inl ?_⟩
    · cases ok
    · cases failed
      rfl
    · cases failed
      rfl

/-- A buffer with other bytes beside its block. -/
theorem unpackInPlace_refines_unpack_beside :
    let block : Bytes := #[128, 3, 135, 192, 2, 2, 192, 32, 0, 88, 4, 24, 130, 89, 67, 248, 0, 0, 0,
      38]
    let buffer : Bytes := block ++ Array.replicate 22 0xaa
    block.size < 38 ∧ 38 ≤ buffer.size ∧ buffer.extract 0 block.size = block ∧
      unpack block 38 = .ok ((unpackInPlace buffer block.size 38).1.extract 0 38) := by
  intro block buffer
  have shorter : block.size < 38 := by decide
  have roomy : 38 ≤ buffer.size := by decide
  have begins : buffer.extract 0 block.size = block := by decide
  have succeeded : (unpackInPlace buffer block.size 38).2 = .ok () := by decide +kernel
  exact ⟨shorter, roomy, begins,
    (unpackInPlace_refines_unpack shorter roomy begins).1 succeeded⟩

end Cinematic.Packing
