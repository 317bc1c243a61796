import Cinematic.Packing.Pack
import Cinematic.Proofs.Bytes

/-!
# Two expansions in lock step

Expanding a block in its own buffer and expanding it above a copy of itself are one program at two
distances: the second run sees every place of the first, shifted upwards by a constant. This
module follows both runs together.

The relation `Cinematic.Packing.Tracks` says what they share. Only the **unread** part of the block
and the **written** part of the data have to agree, and these are exactly the bytes that an
expansion looks at. Between the two lies whatever the buffers held before, and it may differ. That
the unread part stays what it was is the work of one comparison, `Cinematic.Packing.Unpacker.place`;
the same comparison is the only step at which the runs can part, since the lower run has less room.
So the lower run either does what the upper one does, or overruns
(`Cinematic.Packing.InStep`).

Everything follows from one lemma per operation and from
`Cinematic.Packing.Leads.bind`, by which they are put together.
-/

namespace Cinematic.Packing

open Unpacker

/-! ### What two runs share -/

/-- **The upper run is the lower one, `shift` places higher.** The data of the lower run begin where its
buffer does, and as much is left to write as there are places from `floor` up to the last byte
written. -/
structure Tracks (shift floor : Nat) (u v : Unpacker) : Prop where
  source : v.source = u.source
  check : v.check = u.check
  chunk : v.chunk = u.chunk
  remaining : v.remaining = u.remaining
  base : u.start = 0
  start : v.start = shift
  target : v.target = u.target + shift
  size : v.buffer.size = u.buffer.size + shift
  floor : u.target = floor + u.remaining
  /-- The block is the same as far as it is unread. -/
  unread : ∀ i < u.source, v.buffer.byteAt i = u.buffer.byteAt i
  /-- The data are the same as far as they are written. -/
  written : ∀ i < u.buffer.size, u.target ≤ i → v.buffer.byteAt (i + shift) = u.buffer.byteAt i

/-- What becomes of two runs: they succeed with the same result in related states, they fail alike, or
the lower one overruns. -/
inductive InStep {α : Type} (R : Unpacker → Unpacker → Prop) :
    EStateM.Result UnpackError Unpacker α → EStateM.Result UnpackError Unpacker α → Prop
  /-- Both succeed. -/
  | ok (a : α) {u v : Unpacker} : R u v → InStep R (.ok a u) (.ok a v)
  /-- Both fail, for the same reason. -/
  | error (e : UnpackError) (u v : Unpacker) : InStep R (.error e u) (.error e v)
  /-- The lower run has no room, whatever the upper one does. -/
  | overrun (u : Unpacker) (r : EStateM.Result UnpackError Unpacker α) :
    InStep R (.error .outputOverrun u) r

/-- A computation that takes related states to related states in both runs. -/
def Leads {α : Type} (R S : Unpacker → Unpacker → Prop) (c : Unpacking α) : Prop :=
  ∀ ⦃u v⦄, R u v → InStep S (c u) (c v)

namespace Leads

variable {α β : Type} {R S T : Unpacker → Unpacker → Prop} {c : Unpacking α}
  {f : α → Unpacking β}

theorem pure (a : α) : Leads R R (Pure.pure a) := fun _ _ h => .ok a h

/-- **Runs in lock step are put together.** -/
theorem bind (hc : Leads R S c) (hf : ∀ a, Leads S T (f a)) : Leads R T (c >>= f) := by
  intro u v h
  have first := hc h
  change InStep T (EStateM.bind c f u) (EStateM.bind c f v)
  unfold EStateM.bind
  generalize c u = r at first ⊢
  generalize c v = s at first ⊢
  cases first with
  | ok a h => exact hf a h
  | error e u v => exact .error e u v
  | overrun u r => exact .overrun u _

/-- A computation may look at the state first, if what it does then is in step. -/
theorem get_bind {f : Unpacker → Unpacking β}
    (hf : ∀ ⦃u v⦄, R u v → InStep S (f u u) (f v v)) : Leads R S (get >>= f) :=
  fun _ _ h => hf h

end Leads

/-! ### Reading -/

variable {shift floor : Nat}

theorem leads_fetch : Leads (Tracks shift floor) (Tracks shift floor) fetch := by
  intro u v h
  simp only [fetch, h.source]
  by_cases enough : 4 ≤ u.source
  · have same : v.buffer.wordAt (u.source - 4) 4 = u.buffer.wordAt (u.source - 4) 4 :=
      Bytes.wordAt_congr fun k hk => h.unread _ (by omega)
    rw [if_pos enough, if_pos enough, same]
    exact .ok _ { h with
      source := rfl
      unread := fun i (hi : i < u.source - 4) => h.unread i (by omega) }
  · rw [if_neg enough, if_neg enough]
    exact .error _ _ _

theorem leads_bit : Leads (Tracks shift floor) (Tracks shift floor) bit := by
  intro u v h
  simp only [bit, h.chunk]
  by_cases spent : u.chunk >>> 1 = 0
  · rw [if_pos spent, if_pos spent]
    have next := leads_fetch h
    generalize fetch u = r at next ⊢
    generalize fetch v = s at next ⊢
    cases next with
    | ok word h => exact .ok _ { h with check := by rw [h.check], chunk := rfl }
    | error e u v => exact .error e u v
    | overrun u r => exact .overrun u _
  · rw [if_neg spent, if_neg spent]
    exact .ok _ { h with chunk := rfl }

theorem leads_fieldOn (count read : Nat) :
    Leads (Tracks shift floor) (Tracks shift floor) (fieldOn count read) := by
  induction count generalizing read with
  | zero => exact .pure read
  | succ count ih => exact leads_bit.bind fun b => ih _

theorem leads_field (count : Nat) :
    Leads (Tracks shift floor) (Tracks shift floor) (field count) :=
  leads_fieldOn count 0

/-! ### Writing -/

section Writing

variable {α : Type} {S : Unpacker → Unpacker → Prop}

/-- **Where the runs can part.** The upper run may write wherever the lower one may, and the place it
finds is the same one, shifted. -/
theorem Leads.place_bind {f : Nat → Unpacking α}
    (hf : ∀ ⦃u v⦄, Tracks shift floor u v → 1 ≤ u.target → u.source ≤ u.target - 1 →
      u.remaining ≠ 0 → InStep S (f (u.target - 1) u) (f (u.target - 1 + shift) v)) :
    Leads (Tracks shift floor) S (place >>= f) := by
  intro u v h
  change InStep S (EStateM.bind place f u) (EStateM.bind place f v)
  by_cases room : u.remaining ≠ 0 ∧ 1 ≤ u.target ∧ u.source ≤ u.target - 1 ∧ u.start ≤ u.target - 1
  · -- room below is room above
    have lower : place u = .ok (u.target - 1) u := if_pos room
    obtain ⟨left, below, unread, inside⟩ := room
    have upper : place v = .ok (u.target - 1 + shift) v := by
      rw [place, h.remaining, h.source, h.start, h.target,
        if_pos ⟨left, by omega, by omega, by omega⟩]
      congr 1
      omega
    simp only [EStateM.bind, lower, upper]
    exact hf h below unread left
  · -- no room below, and what happens above does not matter
    have refused : place u = .error .outputOverrun u := if_neg room
    simp only [EStateM.bind, refused]
    exact .overrun u _

/-- Writing the same byte at the place found keeps two runs in step: the byte is new to both, and it
is none of the unread ones. -/
theorem Tracks.write {u v : Unpacker} (h : Tracks shift floor u v) (b : UInt8)
    (below : 1 ≤ u.target) (room : u.source ≤ u.target - 1) (left : u.remaining ≠ 0) :
    Tracks shift floor
      { u with
        buffer := u.buffer.setIfInBounds (u.target - 1) b
        target := u.target - 1
        remaining := u.remaining - 1 }
      { v with
        buffer := v.buffer.setIfInBounds (u.target - 1 + shift) b
        target := u.target - 1 + shift
        remaining := v.remaining - 1 } := by
  have hfloor := h.floor
  have hsize := h.size
  refine { h with
    remaining := congrArg (· - 1) h.remaining
    target := rfl
    size := by simpa using h.size
    floor := by change u.target - 1 = floor + (u.remaining - 1); omega
    unread := fun i hi => ?_
    written := fun i hi hout => ?_ }
  · -- an unread byte lies below the place
    change i < u.source at hi
    rw [Bytes.byteAt_setIfInBounds_of_ne (by omega), Bytes.byteAt_setIfInBounds_of_ne (by omega)]
    exact h.unread i hi
  · -- a written byte is the new one or one above it
    change u.target - 1 ≤ i at hout
    rw [Array.size_setIfInBounds] at hi
    by_cases here : u.target - 1 = i
    · rw [here, Bytes.byteAt_setIfInBounds_self (by omega),
        Bytes.byteAt_setIfInBounds_self (by omega)]
    · rw [Bytes.byteAt_setIfInBounds_of_ne (by omega), Bytes.byteAt_setIfInBounds_of_ne here]
      exact h.written i hi (by omega)

theorem leads_literals (count : Nat) :
    Leads (Tracks shift floor) (Tracks shift floor) (literals count) := by
  induction count with
  | zero => exact .pure ()
  | succ count ih =>
    refine (leads_field 8).bind fun b => .place_bind fun u v h below room left => ?_
    exact ih (h.write b.toUInt8 below room left)

/-- An earlier byte is one that both runs have written, or that neither has. -/
theorem earlier_inStep {u v : Unpacker} (h : Tracks shift floor u v) (distance : Nat)
    (below : 1 ≤ u.target) :
    (∃ b, earlier (u.target - 1) distance u = .ok b u ∧
        earlier (u.target - 1 + shift) distance v = .ok b v) ∨
      ∃ e, earlier (u.target - 1) distance u = .error e u ∧
        earlier (u.target - 1 + shift) distance v = .error e v := by
  have hsize := h.size
  unfold earlier
  by_cases bad : distance = 0 ∨ u.buffer.size ≤ u.target - 1 + distance
  · -- both ends of the data are shifted, so the same distances are bad
    refine Or.inr ⟨_, if_pos bad, ?_⟩
    rw [if_pos (by omega), h.base, h.start, Nat.add_sub_cancel, Nat.sub_zero]
  · -- the byte lies above the target, where both have written the same
    refine Or.inl ⟨_, if_neg bad, ?_⟩
    rw [if_neg (by omega), Nat.add_right_comm, h.written _ (by omega) (by omega)]

theorem leads_copy (distance count : Nat) :
    Leads (Tracks shift floor) (Tracks shift floor) (copy distance count) := by
  induction count with
  | zero => exact .pure ()
  | succ count ih =>
    refine .place_bind fun u v h below room left => ?_
    rcases earlier_inStep h distance below with ⟨b, hu, hv⟩ | ⟨e, hu, hv⟩
    · simp only [bind, EStateM.bind, hu, hv]
      exact ih (h.write b below room left)
    · simp only [bind, EStateM.bind, hu, hv]
      exact .error e u v

end Writing

/-! ### Whole expansions -/

theorem leads_token : Leads (Tracks shift floor) (Tracks shift floor) token := by
  have split {c d : Unpacking Unit} (hc : Leads (Tracks shift floor) (Tracks shift floor) c)
      (hd : Leads (Tracks shift floor) (Tracks shift floor) d) :
      Leads (Tracks shift floor) (Tracks shift floor) (bit >>= fun b => if b then c else d) := by
    refine leads_bit.bind fun b => ?_
    cases b
    · exact hd
    · exact hc
  have long : Leads (Tracks shift floor) (Tracks shift floor)
      (field 8 >>= fun count => literals (count + 9)) :=
    (leads_field 8).bind fun count => leads_literals _
  have far : Leads (Tracks shift floor) (Tracks shift floor)
      (field 8 >>= fun count => field 12 >>= fun distance => copy distance (count + 1)) :=
    (leads_field 8).bind fun count => (leads_field 12).bind fun distance => leads_copy _ _
  have near (width count : Nat) : Leads (Tracks shift floor) (Tracks shift floor)
      (field width >>= fun distance => copy distance count) :=
    (leads_field width).bind fun distance => leads_copy _ _
  have short : Leads (Tracks shift floor) (Tracks shift floor)
      (field 3 >>= fun count => literals (count + 1)) :=
    (leads_field 3).bind fun count => leads_literals _
  exact split (split (split long far) (split (near 10 4) (near 9 3))) (split (near 8 2) short)

theorem leads_tokens (fuel : Nat) :
    Leads (Tracks shift floor) (Tracks shift floor) (tokens fuel) := by
  induction fuel with
  | zero => exact .pure ()
  | succ fuel ih =>
    refine .get_bind fun u v h => ?_
    rw [h.remaining]
    by_cases done : u.remaining = 0
    · rw [if_pos done]
      exact .ok () h
    · rw [if_neg done]
      exact leads_token.bind (fun _ => ih) h

theorem leads_checkSum : Leads (Tracks shift floor) (Tracks shift floor) checkSum := by
  refine .get_bind fun u v h => ?_
  rw [h.check]
  by_cases zero : u.check = 0
  · rw [if_pos zero]
    exact .ok () h
  · rw [if_neg zero]
    exact .error _ _ _

/-- After the trailer, as much is left to write as there are places. -/
theorem leads_trailer : Leads (Tracks shift floor) (Tracks shift 0) trailer := by
  refine leads_fetch.bind fun length => leads_fetch.bind fun check => leads_fetch.bind fun chunk =>
    .get_bind fun u v h => ?_
  have expected : v.target - v.start = u.target - u.start := by
    rw [h.target, h.start, h.base, Nat.add_sub_cancel, Nat.sub_zero]
  rw [expected]
  by_cases empty : length = 0
  · rw [if_pos empty, if_pos empty]
    exact .error _ _ _
  · rw [if_neg empty, if_neg empty]
    by_cases other : length.toNat ≠ u.target - u.start
    · rw [if_pos other, if_pos other]
      exact .error _ _ _
    · -- Only now the count of missing bytes is known, and `floor` becomes zero.
      rw [if_neg other, if_neg other]
      have agreed : u.target = 0 + length.toNat := by
        have := h.base
        omega
      refine .ok () ?_
      exact { h with check := rfl, chunk := rfl, remaining := rfl, floor := agreed }

theorem leads_run : Leads (Tracks shift floor) (Tracks shift 0) run := by
  refine leads_trailer.bind fun _ => .get_bind fun u v h => ?_
  rw [h.remaining]
  exact (leads_tokens _).bind (fun _ => leads_checkSum) h

/-- **Two expansions of one block**, the upper one `shift` places higher, are in step. -/
theorem run_inStep {lower upper : Bytes} {packed : Nat} (hsize : upper.size = lower.size + shift)
    (same : ∀ i < packed, upper.byteAt i = lower.byteAt i) :
    InStep (Tracks shift 0) (run ⟨lower, packed, lower.size, 0, 0, 0, 0⟩)
      (run ⟨upper, packed, upper.size, shift, 0, 0, 0⟩) :=
  leads_run
    { source := rfl, check := rfl, chunk := rfl, remaining := rfl, base := rfl, start := rfl
      target := hsize
      size := hsize
      floor := rfl
      unread := same
      written := fun _ inside outside => absurd inside (Nat.not_lt.2 outside) }

end Cinematic.Packing
