import Cinematic.Packing.Pack
import Cinematic.Proofs.Packing.Layout

/-!
# Greedy packing loses nothing

The decisions of a packer, whatever they are, **spell the data they were made for**: the tokens that
they are grouped into are a script for them (`Cinematic.Packing.script_tokensOf`).

Of the index of earlier positions only one thing matters, that every position in it is one before the
present (`Cinematic.Packing.Index.Below`). Then a match reaches back to bytes that have been emitted,
and since its bytes have been compared, copying them yields the bytes that follow
(`Cinematic.Packing.echo_emitted`) – also where a match reaches into itself, because the bytes are
copied one at a time and each has been emitted by the time it is needed. How good the matches are has
no part in it.
-/

namespace Cinematic.Packing

variable {data : Bytes}

/-! ### Matches -/

/-- What has been emitted of some data up to a position, the last byte first. -/
def emitted (data : Bytes) (pos : Nat) : List UInt8 := (data.toList.take pos).reverse

theorem emitted_succ {pos : Nat} (inside : pos < data.size) :
    emitted data (pos + 1) = data[pos] :: emitted data pos := by
  have next : data.toList[pos]? = some data[pos] := by simp [inside]
  rw [emitted, List.take_add_one, next, List.reverse_append]
  rfl

theorem length_emitted {pos : Nat} (inside : pos ≤ data.size) : (emitted data pos).length = pos := by
  rw [emitted, List.length_reverse, List.length_take, Array.length_toList, Nat.min_eq_left inside]

/-- The byte emitted so many bytes ago. -/
theorem getD_emitted {pos distance : Nat} (inside : pos ≤ data.size) (some : 1 ≤ distance)
    (fits : distance ≤ pos) : (emitted data pos).getD (distance - 1) 0 = data.byteAt (pos - distance) := by
  have length : (data.toList.take pos).length = pos := by
    rw [List.length_take, Array.length_toList, Nat.min_eq_left inside]
  have place : pos - 1 - (distance - 1) = pos - distance := by omega
  rw [Bytes.byteAt_eq_getD, emitted, List.getD_eq_getElem?_getD, List.getD_eq_getElem?_getD,
    List.getElem?_reverse (by omega), length, place, List.getElem?_take_of_lt (by omega)]

/-- **Copying bytes that agree with those to come emits those to come.** -/
theorem echo_emitted {pos distance count : Nat} (inside : pos + count ≤ data.size)
    (some : 1 ≤ distance) (fits : distance ≤ pos)
    (agree : ∀ i < count, data.byteAt (pos - distance + i) = data.byteAt (pos + i)) :
    echo distance count (emitted data pos) = emitted data (pos + count) := by
  induction count generalizing pos with
  | zero => rfl
  | succ count ih =>
    have here : pos < data.size := by omega
    have first : (emitted data pos).getD (distance - 1) 0 = data[pos] := by
      rw [getD_emitted (by omega) some fits, ← Bytes.byteAt_eq_getElem here]
      exact agree 0 (by omega)
    have others : ∀ i < count,
        data.byteAt (pos + 1 - distance + i) = data.byteAt (pos + 1 + i) := by
      intro i less
      have shifted := agree (i + 1) (by omega)
      rw [show pos + 1 - distance + i = pos - distance + (i + 1) by omega, shifted]
      congr 1
      omega
    rw [echo, first, ← emitted_succ here, ih (by omega) (by omega) others]
    congr 1
    omega

theorem agreement_le (data : Bytes) (q p limit : Nat) : agreement data q p limit ≤ limit := by
  induction limit generalizing q p with
  | zero => exact Nat.le_refl 0
  | succ limit ih =>
    rw [agreement]
    split
    · exact Nat.succ_le_succ (ih _ _)
    · exact Nat.zero_le _

theorem byteAt_of_lt_agreement {q p limit i : Nat} (h : i < agreement data q p limit) :
    data.byteAt (q + i) = data.byteAt (p + i) := by
  induction limit generalizing q p i with
  | zero => exact absurd h (Nat.not_lt_zero i)
  | succ limit ih =>
    rw [agreement] at h
    split at h
    · next same =>
      cases i with
      | zero => exact same
      | succ i =>
        have rest := ih (Nat.lt_of_succ_lt_succ h)
        rwa [Nat.add_right_comm q, Nat.add_right_comm p] at rest
    · exact absurd h (Nat.not_lt_zero i)

/-- **What a match promises**: it lies within reach, and its bytes are those that follow. -/
structure Match.Holds (m : Match) (data : Bytes) (pos limit : Nat) : Prop where
  length_le : m.length ≤ limit
  distance_le : m.distance ≤ maxDistance
  distance_le_pos : m.distance ≤ pos
  distance_pos : 0 < m.length → 1 ≤ m.distance
  agree : ∀ i < m.length, data.byteAt (pos - m.distance + i) = data.byteAt (pos + i)

theorem Match.holds_none (data : Bytes) (pos limit : Nat) : Match.none.Holds data pos limit where
  length_le := Nat.zero_le _
  distance_le := Nat.zero_le _
  distance_le_pos := Nat.zero_le _
  distance_pos := fun some => absurd some (Nat.lt_irrefl 0)
  agree := fun i some => absurd some (Nat.not_lt_zero i)

/-- A candidate within reach is a match for as long as its bytes agree. -/
theorem Match.holds_agreement (data : Bytes) {pos q : Nat} (limit : Nat) (earlier : q < pos)
    (reach : pos - q ≤ maxDistance) :
    (⟨agreement data q pos limit, pos - q⟩ : Match).Holds data pos limit where
  length_le := agreement_le data q pos limit
  distance_le := reach
  distance_le_pos := Nat.sub_le _ _
  distance_pos := fun _ => Nat.sub_pos_of_lt earlier
  agree := fun i less => by
    rw [Nat.sub_sub_self (Nat.le_of_lt earlier)]
    exact byteAt_of_lt_agreement less

/-! ### The index -/

/-- Only positions before the present are in the index. -/
structure Index.Below (index : Index) (pos : Nat) : Prop where
  latest (key : Fin 65536) (q : Nat) : index.latest.get key = some q → q < pos
  previous? (p q : Nat) : index.previous? p = some q → q < pos

namespace Index

theorem latest_empty (data : Bytes) (key : Fin 65536) : (empty data).latest.get key = none :=
  Vector.getElem_replicate key.isLt

theorem below_empty (data : Bytes) (pos : Nat) : (empty data).Below pos where
  latest key q linked := by
    rw [latest_empty] at linked
    cases linked
  previous? p q linked := by
    rw [Index.previous?, empty, Array.getElem?_replicate] at linked
    split at linked <;> cases linked

theorem latest_insert (index : Index) (data : Bytes) (pos : Nat) (key : Fin 65536) :
    (index.insert data pos).latest.get key =
      if pairAt? data pos = some key then some pos else index.latest.get key := by
  rw [insert]
  cases pairAt? data pos with
  | none => rfl
  | some key' =>
    refine (Vector.getElem_set key'.isLt key.isLt).trans ?_
    simp only [Option.some.injEq, Fin.ext_iff]
    rfl

/-- The link of the position that is entered leads to the one that was the latest. -/
theorem previous?_insert_self {index : Index} {data : Bytes} {pos : Nat} {key : Fin 65536}
    (pair : pairAt? data pos = some key) (room : pos < index.before.size) :
    (index.insert data pos).previous? pos = index.latest.get key := by
  simp [insert, pair, previous?, room]

theorem previous?_insert_of_ne (index : Index) (data : Bytes) {pos q : Nat} (other : q ≠ pos) :
    (index.insert data pos).previous? q = index.previous? q := by
  rw [insert]
  split
  · rfl
  · rw [previous?, Array.getElem?_setIfInBounds_ne other.symm, ← previous?]

@[simp] theorem size_before_insert (index : Index) (data : Bytes) (pos : Nat) :
    (index.insert data pos).before.size = index.before.size := by
  rw [insert]
  split
  · rfl
  · exact Array.size_setIfInBounds

theorem Below.insert {index : Index} {pos : Nat} (h : index.Below pos) (data : Bytes) :
    (index.insert data pos).Below (pos + 1) where
  latest key q linked := by
    rw [latest_insert] at linked
    split at linked
    · obtain rfl := Option.some.inj linked
      exact Nat.lt_succ_self pos
    · exact Nat.lt_succ_of_lt (h.latest key q linked)
  previous? p q linked := by
    rw [Index.previous?, Index.insert] at linked
    split at linked
    · exact Nat.lt_succ_of_lt (h.previous? p q linked)
    · next key _ =>
      dsimp only at linked
      rw [Array.getElem?_setIfInBounds] at linked
      split at linked
      · -- the link that is made leads to the position that was the latest
        split at linked
        · exact Nat.lt_succ_of_lt (h.latest key q linked)
        · cases linked
      · exact Nat.lt_succ_of_lt (h.previous? p q linked)

theorem Below.insertMany {index : Index} {pos : Nat} (h : index.Below pos) (data : Bytes)
    (count : Nat) : (index.insertMany data pos count).Below (pos + count) := by
  induction count generalizing index pos with
  | zero => exact h
  | succ count ih =>
    rw [Index.insertMany, Nat.add_comm count 1, ← Nat.add_assoc]
    exact ih (h.insert data)

/-- **The best of several matches holds** if those found so far do. -/
theorem Below.holds_improve {index : Index} {pos : Nat} (h : index.Below pos) (data : Bytes)
    (limit tries : Nat) {start : Option Nat} {best : Match}
    (earlier : ∀ q, start = some q → q < pos) (holds : best.Holds data pos limit) :
    (index.improve data pos limit tries start best).Holds data pos limit := by
  induction tries generalizing start best with
  | zero => exact holds
  | succ tries ih =>
    cases start with
    | none => exact holds
    | some q =>
      rw [improve]
      split
      · next reach =>
        have candidate := Match.holds_agreement data limit (earlier q rfl) reach
        dsimp only
        split
        · -- a longer one, which ends the search if it cannot be longer still
          split
          · exact candidate
          · exact ih (h.previous? q) candidate
        · exact ih (h.previous? q) holds
      · -- out of reach, and so are all older ones
        exact holds

/-- **The match that is found holds**, and it does not reach beyond the data. -/
theorem Below.holds_longestMatch {index : Index} {pos : Nat} (h : index.Below pos) (data : Bytes) :
    (index.longestMatch data pos).Holds data pos (min maxCopy (data.size - pos)) := by
  unfold longestMatch
  split
  · exact Match.holds_none _ _ _
  · next key _ => exact h.holds_improve data _ _ (h.latest key) (Match.holds_none _ _ _)

end Index

/-! ### Decisions -/

/-- A match that a token can be written for. -/
structure Match.Writable (m : Match) : Prop where
  worthwhile : m.Worthwhile
  length_le : m.length ≤ maxCopy
  distance_le : m.distance ≤ maxDistance

/-- **Decisions that spell some data**: they go on from what has been emitted and end with what will
have been. -/
inductive Retold : List UInt8 → List Step → List UInt8 → Prop
  /-- No decision emits nothing. -/
  | done (out : List UInt8) : Retold out [] out
  /-- A byte is kept. -/
  | keep {out data : List UInt8} {rest : List Step} (b : UInt8) :
    Retold (b :: out) rest data → Retold out (.keep b :: rest) data
  /-- Bytes are copied that have been emitted. -/
  | copy {out data : List UInt8} {rest : List Step} {m : Match} : m.Writable →
    (Token.copy m.length m.distance).Fits out → Retold (echo m.distance m.length out) rest data →
    Retold out (.copy m :: rest) data

/-- **From every position on the packer's decisions spell the rest of the data.** -/
theorem exists_retold_stepsOn {data : Bytes} {pos : Nat} {index : Index} (made : Array Step)
    (below : index.Below pos) (inside : pos ≤ data.size) :
    ∃ rest, (stepsOn data pos index made).toList = made.toList ++ rest ∧
      Retold (emitted data pos) rest data.toList.reverse := by
  fun_induction stepsOn data pos index made with
  | case1 pos index made here m worthwhile ih =>
    -- A match is copied, and every position that it covers goes into the index.
    have holds : m.Holds data pos (min maxCopy (data.size - pos)) := below.holds_longestMatch data
    have length_le := holds.length_le
    have within : pos + m.length ≤ data.size := by omega
    have some := holds.distance_pos worthwhile.length_pos
    obtain ⟨rest, steps, retold⟩ := ih (below.insertMany data m.length) within
    refine ⟨.copy m :: rest, by simpa using steps, .copy ?_ ?_ ?_⟩
    · exact ⟨worthwhile, by omega, holds.distance_le⟩
    · refine ⟨some, ?_⟩
      rw [length_emitted inside]
      exact holds.distance_le_pos
    · have copied := echo_emitted within some holds.distance_le_pos holds.agree
      rw [copied]
      exact retold
  | case2 pos index made here m worthless ih =>
    -- A byte is kept.
    obtain ⟨rest, steps, retold⟩ := ih (below.insert data) here
    rw [emitted_succ here] at retold
    exact ⟨.keep data[pos] :: rest, by simpa using steps, .keep _ retold⟩
  | case3 pos index made outside =>
    -- Nothing is left.
    have all : emitted data pos = data.toList.reverse := by
      rw [emitted, List.take_of_length_le (by rw [Array.length_toList]; omega)]
    refine ⟨[], by simp, ?_⟩
    rw [all]
    exact .done _

theorem retold_steps (data : Bytes) : Retold [] (steps data) data.toList.reverse := by
  obtain ⟨rest, made, retold⟩ :=
    exists_retold_stepsOn #[] (Index.below_empty data 0) (Nat.zero_le data.size)
  rw [steps, made]
  exact retold

/-! ### Tokens -/

/-- **The written form of a token is one of its spellings**, for tokens that have one. -/
theorem spelling_literals {bytes : List UInt8} (some : bytes ≠ []) (few : bytes.length ≤ maxRun) :
    Spelling (.literals bytes) (Token.bits (.literals bytes)) := by
  rw [Token.bits]
  split
  · next short => exact .short some short
  · next long => exact .long (by omega) few

theorem spelling_copy {m : Match} (h : m.Writable) :
    Spelling (.copy m.length m.distance) (Token.bits (.copy m.length m.distance)) := by
  obtain ⟨worthwhile, length_le, distance_le⟩ := h
  rw [maxCopy] at length_le
  rw [maxDistance] at distance_le
  rw [Token.bits]
  split
  · next two =>
    have near : m.distance ≤ 0xff := by
      rcases worthwhile with long | ⟨-, near⟩
      · omega
      · exact near
    rw [two]
    exact .two (by omega)
  · split
    · next three =>
      rw [three.1]
      exact .three (by omega)
    · split
      · next four =>
        rw [four.1]
        exact .four (by omega)
      · exact .far worthwhile.length_pos length_le (by omega)

/-- Closing a run of kept bytes puts a token before a script that goes on from them. -/
theorem exists_script_closeRun {run : Array UInt8} (tokens : Array Token) {out data : List UInt8}
    {bits : List Bool} (few : run.size ≤ maxRun)
    (script : Script (run.toList.reverse ++ out) bits data) :
    ∃ more, (closeRun run tokens).toList = tokens.toList ++ more ∧
      Script out (more.flatMap Token.bits ++ bits) data := by
  rw [closeRun]
  split
  · next empty =>
    rw [Array.isEmpty_iff] at empty
    rw [empty] at script
    exact ⟨[], by simp, script⟩
  · next some =>
    rw [Array.isEmpty_iff, ← Array.toList_eq_nil_iff] at some
    refine ⟨[.literals run.toList], by simp, ?_⟩
    rw [List.flatMap_cons, List.flatMap_nil, List.append_nil]
    exact .token (spelling_literals some (by simpa using few)) trivial script

/-- **Grouped decisions are a script** for what they spell. -/
theorem exists_script_groupOn {steps : List Step} {run : Array UInt8} (tokens : Array Token)
    {out data : List UInt8} (few : run.size < maxRun)
    (retold : Retold (run.toList.reverse ++ out) steps data) :
    ∃ more, (groupOn steps run tokens).toList = tokens.toList ++ more ∧
      Script out (more.flatMap Token.bits) data := by
  induction steps generalizing run tokens out with
  | nil =>
    cases retold
    obtain ⟨more, grouped, script⟩ :=
      exists_script_closeRun tokens (Nat.le_of_lt few) (.done _)
    exact ⟨more, grouped, by simpa using script⟩
  | cons step rest ih =>
    cases retold with
    | keep b retold =>
      have longer : b :: (run.toList.reverse ++ out) = (run.push b).toList.reverse ++ out := by
        simp
      rw [longer] at retold
      rw [groupOn]
      split
      · next full =>
        -- The run is as long as a token can carry, so a new one begins after it.
        have retold' : Retold ((#[] : Array UInt8).toList.reverse
            ++ ((run.push b).toList.reverse ++ out)) rest data := retold
        obtain ⟨more, grouped, script⟩ :=
          ih (closeRun (run.push b) tokens) (by decide) retold'
        obtain ⟨closed, tokens_eq, script⟩ :=
          exists_script_closeRun tokens (Nat.le_of_eq full) script
        refine ⟨closed ++ more, ?_, ?_⟩
        · rw [grouped, tokens_eq, List.append_assoc]
        · rw [List.flatMap_append]
          exact script
      · next notFull =>
        rw [Array.size_push] at notFull
        exact ih tokens (by rw [Array.size_push]; omega) retold
    | @copy _ _ _ m writable fits retold =>
      have retold' : Retold ((#[] : Array UInt8).toList.reverse
          ++ echo m.distance m.length (run.toList.reverse ++ out)) rest data := retold
      rw [groupOn]
      obtain ⟨more, grouped, script⟩ :=
        ih ((closeRun run tokens).push (.copy m.length m.distance)) (by decide) retold'
      obtain ⟨closed, tokens_eq, script⟩ :=
        exists_script_closeRun tokens (Nat.le_of_lt few)
          (.token (spelling_copy writable) fits script)
      refine ⟨closed ++ .copy m.length m.distance :: more, ?_, ?_⟩
      · rw [grouped, Array.toList_push, tokens_eq, List.append_assoc, List.append_assoc]
        rfl
      · rw [List.flatMap_append, List.flatMap_cons]
        exact script

/-- **The tokens of some data are a script for them**, in reverse. -/
theorem script_tokensOf (data : Bytes) :
    Script [] ((tokensOf data).flatMap Token.bits) data.toList.reverse := by
  have retold : Retold ((#[] : Array UInt8).toList.reverse ++ []) (steps data)
      data.toList.reverse := retold_steps data
  obtain ⟨more, grouped, script⟩ := exists_script_groupOn #[] (by decide) retold
  rw [tokensOf, grouped]
  exact script

/-- **The block of some data represents them**, if their length fits the trailer. -/
theorem exists_represents_block (nonempty : data.size ≠ 0) (fits : data.size < 2 ^ 32) :
    ∃ bits, Represents (block data) bits data := by
  refine ⟨_, represents_layout ?_ nonempty fits⟩
  simpa using script_tokensOf data.reverse

end Cinematic.Packing
