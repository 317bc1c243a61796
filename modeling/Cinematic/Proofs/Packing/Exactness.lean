import Cinematic.Proofs.Packing.Progress

/-!
# Expansion is exact

**A block is expanded exactly if it represents data, and then to these data**: the program that
expands blocks and the description of their format (`Cinematic.Packing.Represents`) agree on every
block. One direction follows a successful run and collects the tokens that it has carried out; the
other follows a script and shows that the run cannot fail on the way.

Both directions are inductions over the same things: the bytes of a token, then the tokens of a
script. That a run does not stop too early is a matter of counting: it is given as many tokens as
there are bytes, and a token emits at least one.
-/

namespace Cinematic.Packing

open Unpacker

variable {block : Bytes} {n : Nat} {bits : List Bool} {out : List UInt8} {u v : Unpacker}

/-! ### The bytes of a token -/

theorem literals_sound {count : Nat} (h : Progress block n bits out u)
    (run : literals count u = .ok () v) :
    ∃ bytes : List UInt8, bytes.length = count ∧
      Progress block n (bits ++ bytes.flatMap byteBits) (bytes.reverse ++ out) v := by
  induction count generalizing bits out u with
  | zero =>
    cases run
    exact ⟨[], rfl, by simpa using h⟩
  | succ count ih =>
    obtain ⟨value, u₁, readByte, run⟩ := bind_eq_ok.1 run
    obtain ⟨pos, u₂, found, run⟩ := bind_eq_ok.1 run
    obtain ⟨small, next⟩ := field_sound h readByte
    obtain ⟨rfl, rfl, room⟩ := place_sound next found
    obtain ⟨bytes, rfl, last⟩ := ih (next.write room value.toUInt8) run
    have value_eq : value.toUInt8.toNat = value := UInt8.toNat_ofNat_of_lt' small
    refine ⟨value.toUInt8 :: bytes, rfl, ?_⟩
    rw [List.flatMap_cons, byteBits, value_eq]
    simpa using last

theorem literals_complete {bytes : List UInt8} (h : Progress block n bits out u)
    (more : bits ++ bytes.flatMap byteBits <+: bitString block)
    (room : (bytes.reverse ++ out).length ≤ n) :
    ∃ v, literals bytes.length u = .ok () v ∧
      Progress block n (bits ++ bytes.flatMap byteBits) (bytes.reverse ++ out) v := by
  induction bytes generalizing bits out u with
  | nil => exact ⟨u, rfl, by simpa using h⟩
  | cons b bytes ih =>
    rw [List.flatMap_cons, ← List.append_assoc] at more
    simp only [List.reverse_cons, List.append_assoc, List.singleton_append, List.length_append,
      List.length_reverse, List.length_cons] at room
    obtain ⟨u₁, readByte, next⟩ :=
      field_complete h b.toNat_lt ((List.prefix_append _ _).trans more)
    have found := place_eq next (by omega)
    obtain ⟨v, run, last⟩ := ih (next.write (by omega) b) more (by simpa using room)
    refine ⟨v, bind_eq_ok.2 ⟨_, u₁, readByte, bind_eq_ok.2 ⟨_, u₁, found, ?_⟩⟩, ?_⟩
    · have same : b.toNat.toUInt8 = b := UInt8.ofNat_toNat
      rw [same]
      exact run
    · simpa [byteBits] using last

theorem copy_sound {distance count : Nat} (h : Progress block n bits out u)
    (run : copy distance count u = .ok () v) :
    (0 < count → 1 ≤ distance ∧ distance ≤ out.length) ∧
      Progress block n bits (echo distance count out) v := by
  induction count generalizing out u with
  | zero =>
    cases run
    exact ⟨fun some => absurd some (Nat.lt_irrefl 0), h⟩
  | succ count ih =>
    obtain ⟨pos, u₁, found, run⟩ := bind_eq_ok.1 run
    obtain ⟨b, u₂, taken, run⟩ := bind_eq_ok.1 run
    obtain ⟨rfl, rfl, room⟩ := place_sound h found
    have fits := earlier_sound h taken
    rw [earlier_eq h room fits] at taken
    cases taken
    obtain ⟨-, last⟩ := ih (h.write room _) run
    exact ⟨fun _ => fits, last⟩

theorem copy_complete {distance count : Nat} (h : Progress block n bits out u)
    (fits : 1 ≤ distance ∧ distance ≤ out.length) (room : (echo distance count out).length ≤ n) :
    ∃ v, copy distance count u = .ok () v ∧
      Progress block n bits (echo distance count out) v := by
  induction count generalizing out u with
  | zero => exact ⟨u, rfl, h⟩
  | succ count ih =>
    rw [length_echo] at room
    have found := place_eq h (by omega)
    have taken := earlier_eq h (by omega) fits
    obtain ⟨v, run, last⟩ := ih (h.write (by omega) (out.getD (distance - 1) 0))
      (by rw [List.length_cons]; omega)
      (by rw [length_echo, List.length_cons]; omega)
    exact ⟨v, bind_eq_ok.2 ⟨_, u, found, bind_eq_ok.2 ⟨_, u, taken, run⟩⟩, last⟩

/-! ### Tokens -/

/-- Bytes that are kept: a count above the least one, and the bytes. -/
theorem kept_sound {width least : Nat} (h : Progress block n bits out u)
    (run : (field width >>= fun count => literals (count + least)) u = .ok () v) :
    ∃ bytes : List UInt8, least ≤ bytes.length ∧ bytes.length < 2 ^ width + least ∧
      Progress block n (bits ++ (fieldBits width (bytes.length - least) ++ bytes.flatMap byteBits))
        (bytes.reverse ++ out) v := by
  obtain ⟨count, u₁, counted, run⟩ := bind_eq_ok.1 run
  obtain ⟨small, next⟩ := field_sound h counted
  obtain ⟨bytes, length, last⟩ := literals_sound next run
  have above : bytes.length - least = count := by omega
  refine ⟨bytes, by omega, by omega, ?_⟩
  rw [above, ← List.append_assoc]
  exact last

theorem kept_complete {width least : Nat} {bytes : List UInt8} (h : Progress block n bits out u)
    (enough : least ≤ bytes.length) (small : bytes.length < 2 ^ width + least)
    (more : bits ++ (fieldBits width (bytes.length - least) ++ bytes.flatMap byteBits)
      <+: bitString block)
    (room : (bytes.reverse ++ out).length ≤ n) :
    ∃ v, (field width >>= fun count => literals (count + least)) u = .ok () v ∧
      Progress block n (bits ++ (fieldBits width (bytes.length - least) ++ bytes.flatMap byteBits))
        (bytes.reverse ++ out) v := by
  rw [← List.append_assoc] at more ⊢
  obtain ⟨u₁, counted, next⟩ :=
    field_complete h (by omega) ((List.prefix_append _ _).trans more)
  obtain ⟨v, run, last⟩ := literals_complete next more room
  rw [← Nat.sub_add_cancel enough] at run
  exact ⟨v, bind_eq_ok.2 ⟨_, u₁, counted, run⟩, last⟩

/-- Bytes that are copied: how many is known, and the distance follows. -/
theorem copied_sound {width count : Nat} (h : Progress block n bits out u) (some : 0 < count)
    (run : (field width >>= fun distance => copy distance count) u = .ok () v) :
    ∃ distance < 2 ^ width, (Token.copy count distance).Fits out ∧
      Progress block n (bits ++ fieldBits width distance) (echo distance count out) v := by
  obtain ⟨distance, u₁, measured, run⟩ := bind_eq_ok.1 run
  obtain ⟨small, next⟩ := field_sound h measured
  obtain ⟨fits, last⟩ := copy_sound next run
  exact ⟨distance, small, fits some, last⟩

theorem copied_complete {width count distance : Nat} (h : Progress block n bits out u)
    (small : distance < 2 ^ width) (fits : (Token.copy count distance).Fits out)
    (more : bits ++ fieldBits width distance <+: bitString block)
    (room : (echo distance count out).length ≤ n) :
    ∃ v, (field width >>= fun distance => copy distance count) u = .ok () v ∧
      Progress block n (bits ++ fieldBits width distance) (echo distance count out) v := by
  obtain ⟨u₁, measured, next⟩ := field_complete h small more
  obtain ⟨v, run, last⟩ := copy_complete next fits room
  exact ⟨v, bind_eq_ok.2 ⟨_, u₁, measured, run⟩, last⟩

/-- A token that has been carried out was spelt by the bits that it took. -/
theorem token_sound (h : Progress block n bits out u) (run : token u = .ok () v) :
    ∃ t spelling, Spelling t spelling ∧ t.Fits out ∧
      Progress block n (bits ++ spelling) (t.emit out) v := by
  obtain ⟨b₁, u₁, first, run⟩ := bind_eq_ok.1 run
  have h := bit_sound h first
  cases b₁ with
  | false =>
    obtain ⟨b₂, u₂, second, run⟩ := bind_eq_ok.1 run
    have h := bit_sound h second
    cases b₂ with
    | false =>
      obtain ⟨bytes, some, few, h⟩ := kept_sound h run
      have nonempty : bytes ≠ [] := List.length_pos_iff.1 some
      refine ⟨.literals bytes, _, .short nonempty (by omega), trivial, ?_⟩
      simpa [Token.emit] using h
    | true =>
      obtain ⟨distance, small, fits, h⟩ := copied_sound h (by omega) run
      exact ⟨.copy 2 distance, _, .two small, fits, by simpa [Token.emit] using h⟩
  | true =>
    obtain ⟨b₂, u₂, second, run⟩ := bind_eq_ok.1 run
    have h := bit_sound h second
    cases b₂ with
    | false =>
      obtain ⟨b₃, u₃, third, run⟩ := bind_eq_ok.1 run
      have h := bit_sound h third
      cases b₃ with
      | false =>
        obtain ⟨distance, small, fits, h⟩ := copied_sound h (by omega) run
        exact ⟨.copy 3 distance, _, .three small, fits, by simpa [Token.emit] using h⟩
      | true =>
        obtain ⟨distance, small, fits, h⟩ := copied_sound h (by omega) run
        exact ⟨.copy 4 distance, _, .four small, fits, by simpa [Token.emit] using h⟩
    | true =>
      obtain ⟨b₃, u₃, third, run⟩ := bind_eq_ok.1 run
      have h := bit_sound h third
      cases b₃ with
      | false =>
        obtain ⟨count, u₄, counted, run⟩ := bind_eq_ok.1 run
        obtain ⟨few, h⟩ := field_sound h counted
        obtain ⟨distance, small, fits, h⟩ := copied_sound h (by omega) run
        refine ⟨.copy (count + 1) distance, _, .far (by omega) (by omega) small, fits, ?_⟩
        simpa [Token.emit] using h
      | true =>
        obtain ⟨bytes, many, few, h⟩ := kept_sound h run
        refine ⟨.literals bytes, _, .long many (by omega), trivial, ?_⟩
        simpa [Token.emit] using h

/-- **What a bit decides**: when the next bit is known, only one branch is left to be completed. -/
theorem branch_complete {b : Bool} {rest : List Bool} {data : List UInt8}
    {branch : Bool → Unpacking Unit} (h : Progress block n bits out u)
    (more : bits ++ b :: rest <+: bitString block)
    (chosen : ∀ ⦃u⦄, Progress block n (bits ++ [b]) out u →
      bits ++ [b] ++ rest <+: bitString block →
      ∃ v, branch b u = .ok () v ∧ Progress block n (bits ++ [b] ++ rest) data v) :
    ∃ v, (bit >>= branch) u = .ok () v ∧ Progress block n (bits ++ b :: rest) data v := by
  rw [List.append_cons] at more ⊢
  obtain ⟨u₁, run, next⟩ := bit_complete h ((List.prefix_append _ _).trans more)
  obtain ⟨v, rest, last⟩ := chosen next more
  exact ⟨v, bind_eq_ok.2 ⟨b, u₁, run, rest⟩, last⟩

/-- **A token that is spelt by the next bits can be carried out**, if it makes sense and there is room
for what it emits. -/
theorem token_complete {t : Token} {spelling : List Bool} (h : Progress block n bits out u)
    (spelt : Spelling t spelling) (fits : t.Fits out) (more : bits ++ spelling <+: bitString block)
    (room : (t.emit out).length ≤ n) :
    ∃ v, token u = .ok () v ∧ Progress block n (bits ++ spelling) (t.emit out) v := by
  -- Each spelling is followed bit by bit to the branch that carries its fields.
  cases spelt with
  | short nonempty few =>
    have some := List.length_pos_iff.2 nonempty
    simp only [List.cons_append, List.nil_append] at more ⊢
    refine branch_complete h more fun _ h more => branch_complete h more fun _ h more => ?_
    exact kept_complete h some (by omega) more room
  | long many few =>
    simp only [List.cons_append, List.nil_append] at more ⊢
    refine branch_complete h more fun _ h more => branch_complete h more fun _ h more =>
      branch_complete h more fun _ h more => ?_
    exact kept_complete h many (by omega) more room
  | two small =>
    simp only [List.cons_append, List.nil_append] at more ⊢
    refine branch_complete h more fun _ h more => branch_complete h more fun _ h more => ?_
    exact copied_complete h small fits more room
  | three small | four small =>
    simp only [List.cons_append, List.nil_append] at more ⊢
    refine branch_complete h more fun _ h more => branch_complete h more fun _ h more =>
      branch_complete h more fun _ h more => ?_
    exact copied_complete h small fits more room
  | far some few small =>
    simp only [List.cons_append, List.nil_append] at more ⊢
    refine branch_complete h more fun _ h more => branch_complete h more fun _ h more =>
      branch_complete h more fun u h more => ?_
    rw [← List.append_assoc] at more ⊢
    obtain ⟨u₁, counted, h⟩ :=
      field_complete h (by omega) ((List.prefix_append _ _).trans more)
    obtain ⟨v, run, h⟩ := copied_complete h small fits more room
    rw [← Nat.sub_add_cancel some] at run
    exact ⟨v, bind_eq_ok.2 ⟨_, u₁, counted, run⟩, h⟩

/-! ### Scripts -/

/-- What has been emitted is never taken back. -/
theorem Script.length_le {data : List UInt8} (h : Script out bits data) :
    out.length ≤ data.length := by
  induction h with
  | done out => exact Nat.le_refl _
  | token spelt _ _ ih => exact Nat.le_trans (Nat.le_of_lt (spelt.length_emit _)) ih

/-- Tokens are carried out for as long as something is left to write. -/
theorem tokens_succ (fuel : Nat) (u : Unpacker) :
    tokens (fuel + 1) u =
      if u.remaining = 0 then .ok () u else (token >>= fun _ => tokens fuel) u := by
  change (if u.remaining = 0 then pure () else token >>= fun _ => tokens fuel :
    Unpacking Unit) u = _
  split <;> rfl

/-- **A run that has ended has read a script**, if it was given enough tokens. -/
theorem tokens_sound {fuel : Nat} (h : Progress block n bits out u) (enough : u.remaining ≤ fuel)
    (run : tokens fuel u = .ok () v) :
    ∃ (more : List Bool) (data : List UInt8), Script out more data ∧ data.length = n ∧
      Progress block n (bits ++ more) data v := by
  induction fuel generalizing bits out u with
  | zero =>
    have remaining := h.remaining
    cases run
    exact ⟨[], out, .done out, by omega, by simpa using h⟩
  | succ fuel ih =>
    have remaining := h.remaining
    rw [tokens_succ] at run
    split at run
    · next finished =>
      cases run
      exact ⟨[], out, .done out, by omega, by simpa using h⟩
    · obtain ⟨⟨⟩, u₁, first, run⟩ := bind_eq_ok.1 run
      obtain ⟨t, spelling, spelt, fits, next⟩ := token_sound h first
      -- The token has emitted a byte, so one token less is enough for what is left.
      have longer := spelt.length_emit out
      have left : u₁.remaining ≤ fuel := by
        have := next.remaining
        omega
      obtain ⟨more, data, script, length, last⟩ := ih next left run
      refine ⟨spelling ++ more, data, .token spelt fits script, length, ?_⟩
      rw [← List.append_assoc]
      exact last

/-- **A script is carried out to its end.** -/
theorem tokens_complete {fuel : Nat} {more : List Bool} {data : List UInt8}
    (script : Script out more data) (length : data.length = n) (h : Progress block n bits out u)
    (begins : bits ++ more <+: bitString block) (enough : u.remaining ≤ fuel) :
    ∃ v, tokens fuel u = .ok () v ∧ Progress block n (bits ++ more) data v := by
  induction script generalizing bits fuel u with
  | done out =>
    have remaining := h.remaining
    refine ⟨u, ?_, by simpa using h⟩
    cases fuel with
    | zero => rfl
    | succ fuel =>
      rw [tokens_succ, if_pos (by omega)]
  | @token out data t spelling more spelt fits script ih =>
    have remaining := h.remaining
    have longer := spelt.length_emit out
    have within := script.length_le
    rw [← List.append_assoc] at begins ⊢
    -- What the token emits is still missing, so something is left to write.
    obtain ⟨fuel, rfl⟩ : ∃ less, fuel = less + 1 := ⟨fuel - 1, by omega⟩
    obtain ⟨u₁, first, next⟩ :=
      token_complete h spelt fits ((List.prefix_append _ _).trans begins) (by omega)
    have left : u₁.remaining ≤ fuel := by
      have := next.remaining
      omega
    obtain ⟨v, run, last⟩ := ih length next begins left
    refine ⟨v, ?_, last⟩
    rw [tokens_succ, if_neg (by omega)]
    exact bind_eq_ok.2 ⟨(), u₁, first, run⟩

/-! ### Whole blocks -/

/-- The state that an expansion above a copy of its block begins in. -/
def fresh (block : Bytes) (n : Nat) : Unpacker :=
  ⟨block ++ Array.replicate n 0, block.size, (block ++ Array.replicate n (0 : UInt8)).size,
    block.size, 0, 0, 0⟩

/-- The state after the trailer. -/
def settled (block : Bytes) (n : Nat) : Unpacker :=
  { fresh block n with
    source := block.size - 4 - 4 - 4
    remaining := (tailWord block 0).toNat
    check := tailWord block 1 ^^^ tailWord block 2
    chunk := tailWord block 2 }

theorem progress_settled (trailed : trailerSize ≤ block.size)
    (announced : (tailWord block 0).toNat = n) : Progress block n [] [] (settled block n) where
  start := rfl
  size := by simp [settled, fresh]
  target := by simp [settled, fresh]
  remaining := announced
  unread := fun i hi => Bytes.byteAt_append_left hi
  written := by simp [settled, fresh]
  words := by
    refine ⟨0, ?_, rfl, rfl⟩
    simp only [trailerSize] at trailed ⊢
    change block.size - 4 - 4 - 4 + 12 + 4 * 0 = block.size
    omega

/-- The words of the trailer decide whether an expansion begins, wherever the data are to be. -/
theorem trailer_eq (trailed : trailerSize ≤ block.size) (source : u.source = block.size)
    (intact : ∀ i < block.size, u.buffer.byteAt i = block.byteAt i) :
    ∃ w, trailer u =
      if tailWord block 0 = 0 then .error .alreadyUnpacked w
      else if (tailWord block 0).toNat ≠ u.target - u.start then
        .error (.lengthMismatch (tailWord block 0) (u.target - u.start)) w
      else .ok () { u with
        source := block.size - 4 - 4 - 4
        remaining := (tailWord block 0).toNat
        check := tailWord block 1 ^^^ tailWord block 2
        chunk := tailWord block 2 } := by
  simp only [trailerSize] at trailed
  let u₁ : Unpacker := { u with source := block.size - 4 }
  let u₂ : Unpacker := { u with source := block.size - 4 - 4 }
  let u₃ : Unpacker := { u with source := block.size - 4 - 4 - 4 }
  have unread (below : Nat) (le : below ≤ block.size) (i : Nat) (hi : i < below) :
      u.buffer.byteAt i = block.byteAt i := intact i (Nat.lt_of_lt_of_le hi le)
  have first : fetch u = .ok (tailWord block 0) u₁ := by
    have fetched := fetch_tailWord (k := 0) (unread u.source (by omega)) source (by omega)
    rwa [source] at fetched
  have second : fetch u₁ = .ok (tailWord block 1) u₂ :=
    fetch_tailWord (unread (block.size - 4) (by omega)) (by simp [u₁]; omega) (by simp [u₁]; omega)
  have third : fetch u₂ = .ok (tailWord block 2) u₃ :=
    fetch_tailWord (unread (block.size - 4 - 4) (by omega)) (by simp [u₂]; omega)
      (by simp [u₂]; omega)
  refine ⟨u₃, ?_⟩
  simp only [trailer, bind, EStateM.bind, first, second, third]
  change (if tailWord block 0 = 0 then throw .alreadyUnpacked
    else if (tailWord block 0).toNat ≠ u.target - u.start then
      throw (.lengthMismatch (tailWord block 0) (u.target - u.start))
    else set { u with
      source := block.size - 4 - 4 - 4
      remaining := (tailWord block 0).toNat
      check := tailWord block 1 ^^^ tailWord block 2
      chunk := tailWord block 2 } : Unpacking Unit) u₃ = _
  split
  · rfl
  · split <;> rfl

theorem trailer_fresh (trailed : trailerSize ≤ block.size) :
    ∃ w, trailer (fresh block n) =
      if tailWord block 0 = 0 then .error .alreadyUnpacked w
      else if (tailWord block 0).toNat ≠ n then .error (.lengthMismatch (tailWord block 0) n) w
      else .ok () (settled block n) := by
  have expected : (fresh block n).target - (fresh block n).start = n := by simp [fresh]
  have decision := trailer_eq (u := fresh block n) trailed rfl
    fun i hi => Bytes.byteAt_append_left hi
  rwa [expected] at decision

theorem checkSum_eq (u : Unpacker) :
    checkSum u = if u.check = 0 then .ok () u else .error (.checksum u.check) u := by
  change (if u.check = 0 then pure () else throw (.checksum u.check) : Unpacking Unit) u = _
  split <;> rfl

/-- A run that succeeds has found what the block represents. -/
theorem run_sound (trailed : trailerSize ≤ block.size) (run : run (fresh block n) = .ok () v)
    (some : n ≠ 0) :
    ∃ (bits : List Bool) (data : List UInt8), data.length = n ∧
      Represents block bits data.toArray ∧ Progress block n bits data v := by
  obtain ⟨⟨⟩, u₁, begun, run⟩ := bind_eq_ok.1 run
  obtain ⟨w, decision⟩ := trailer_fresh (n := n) trailed
  rw [decision] at begun
  -- The two refusals of the trailer are no success.
  split at begun
  · cases begun
  split at begun
  · cases begun
  next nonzero same =>
  rw [not_not] at same
  cases begun
  change (tokens (settled block n).remaining >>= fun _ => checkSum) (settled block n) = _ at run
  obtain ⟨⟨⟩, u₂, carried, run⟩ := bind_eq_ok.1 run
  obtain ⟨bits, data, script, length, last⟩ :=
    tokens_sound (progress_settled trailed same) (Nat.le_refl _) carried
  rw [List.nil_append] at last
  rw [checkSum_eq] at run
  split at run
  · next zero =>
    cases run
    obtain ⟨k, read⟩ := last.words
    refine ⟨bits, data, length, ?_, last⟩
    exact {
      announced := by rw [same, List.size_toArray, length]
      nonempty := by rwa [List.size_toArray, length]
      begins := last.begins
      script := script
      cancels := by rw [← read.eq_wordsReached, ← read.check, zero] }
  · cases run

/-- The expansion of a block that represents data succeeds. -/
theorem run_complete {data : Bytes} (trailed : trailerSize ≤ block.size)
    (h : Represents block bits data) :
    ∃ v, run (fresh block data.size) = .ok () v ∧
      Progress block data.size bits data.toList v := by
  obtain ⟨w, decision⟩ := trailer_fresh (n := data.size) trailed
  have nonzero : tailWord block 0 ≠ 0 := by
    intro zero
    have := h.announced
    rw [zero] at this
    exact h.nonempty this.symm
  rw [if_neg nonzero, if_neg (not_not.2 h.announced)] at decision
  obtain ⟨v, carried, last⟩ :=
    tokens_complete h.script Array.length_toList (progress_settled trailed h.announced)
      h.begins (Nat.le_refl _)
  rw [List.nil_append] at last
  refine ⟨v, bind_eq_ok.2 ⟨(), _, decision, ?_⟩, last⟩
  change (tokens (settled block data.size).remaining >>= fun _ => checkSum)
    (settled block data.size) = _
  refine bind_eq_ok.2 ⟨(), v, carried, ?_⟩
  obtain ⟨k, read⟩ := last.words
  have zero : v.check = 0 := by rw [read.check, read.eq_wordsReached, h.cancels]
  rw [checkSum_eq, if_pos zero]

/-- When everything has been emitted, the data stand above the block. -/
theorem Progress.extract_eq {data : List UInt8} (h : Progress block n bits data v)
    (length : data.length = n) :
    v.buffer.extract block.size v.buffer.size = data.toArray := by
  have target := h.target
  have place : v.target = block.size := by omega
  rw [← h.written, place, ← Array.toList_inj, Array.toList_extract, List.extract_eq_take_drop,
    List.take_of_length_le (by simp)]

/-- What a run yields that was given a copy of a block to write above. -/
def yielded (block : Bytes) :
    EStateM.Result UnpackError Unpacker Unit → Except UnpackError Bytes
  | .ok _ v => .ok (v.buffer.extract block.size v.buffer.size)
  | .error e _ => .error e

section Expand

variable {buffer : Bytes} {packed start : Nat}

theorem expand_of_ok (h : run ⟨buffer, packed, buffer.size, start, 0, 0, 0⟩ = .ok () v) :
    expand buffer packed start = (v.buffer, .ok ()) := by
  rw [expand, h]

theorem expand_of_error {e : UnpackError}
    (h : run ⟨buffer, packed, buffer.size, start, 0, 0, 0⟩ = .error e v) :
    expand buffer packed start = (v.buffer, .error e) := by
  rw [expand, h]

end Expand

/-- Expanding a block means running the expansion above a copy of it. -/
theorem unpack_eq (trailed : trailerSize ≤ block.size) (shorter : block.size < n) :
    unpack block n = yielded block (run (fresh block n)) := by
  rw [unpack, if_neg (by omega), if_neg (by omega), if_neg (by omega)]
  cases result : run (fresh block n) with
  | ok a v =>
    rw [expand_of_ok result]
    rfl
  | error e v =>
    rw [expand_of_error result]
    rfl

theorem unpack_eq_ok_of_represents {data : Bytes} (trailed : trailerSize ≤ block.size)
    (shorter : block.size < data.size) (h : Represents block bits data) :
    unpack block data.size = .ok data := by
  obtain ⟨v, run, last⟩ := run_complete trailed h
  rw [unpack_eq trailed shorter, run]
  exact congrArg _ (last.extract_eq Array.length_toList)

theorem exists_represents_of_unpack {data : Bytes} (trailed : trailerSize ≤ block.size)
    (shorter : block.size < n) (h : unpack block n = .ok data) :
    data.size = n ∧ ∃ bits, Represents block bits data := by
  rw [unpack_eq trailed shorter] at h
  cases result : run (fresh block n) with
  | ok a v =>
    rw [result] at h
    obtain ⟨bits, data', length, represents, last⟩ := run_sound trailed result (by omega)
    rw [yielded, last.extract_eq length] at h
    cases h
    exact ⟨length, bits, represents⟩
  | error e v =>
    rw [result] at h
    cases h

/-! ### Words that do not matter -/

/-- The words that a script reaches into are there. -/
theorem wordsReached_le (begins : bits <+: bitString block) :
    wordsReached block bits.length ≤ block.size / 4 - 3 := by
  have longer := begins.length_le
  simp only [bitString, List.length_append, length_flatMap_wordBits, length_dataWords] at longer
  simp only [wordsReached]
  omega

/-- The first words below the trailer make up the beginning of the string. -/
theorem begins_take (begins : bits <+: bitString block) :
    bits <+: chunkBits (tailWord block 2) ++
      ((dataWords block).take (wordsReached block bits.length)).flatMap wordBits := by
  have some := wordsReached_le begins
  refine List.prefix_of_prefix_length_le begins ?_ ?_
  · rw [bitString, List.prefix_append_right_inj]
    conv => rhs; rw [← List.take_append_drop (wordsReached block bits.length) (dataWords block)]
    rw [List.flatMap_append]
    exact List.prefix_append _ _
  · rw [List.length_append, length_flatMap_wordBits, List.length_take, length_dataWords,
      Nat.min_eq_left some]
    simp only [wordsReached]
    omega

/-- Blocks that agree in the words of the trailer and the first `k` below it have these words in
common. -/
theorem take_dataWords_congr {other : Bytes} {k : Nat} (here : k ≤ block.size / 4 - 3)
    (there : k ≤ other.size / 4 - 3)
    (same : ∀ i < 3 + k, tailWord other i = tailWord block i) :
    (dataWords other).take k = (dataWords block).take k := by
  refine List.ext_getElem? fun i => ?_
  by_cases inside : i < k
  · rw [List.getElem?_take_of_lt inside, List.getElem?_take_of_lt inside,
      getElem?_dataWords (by omega), getElem?_dataWords (by omega), same (i + 3) (by omega)]
  · rw [List.getElem?_eq_none (by simp; omega), List.getElem?_eq_none (by simp; omega)]

/-- **What lies below the words that a script reaches into does not matter.** -/
theorem Represents.of_agree {data other : Bytes} (h : Represents block bits data)
    (long : 4 * (3 + wordsReached block bits.length) ≤ other.size)
    (same : ∀ i < 3 + wordsReached block bits.length, tailWord other i = tailWord block i) :
    Represents other bits data := by
  have words := take_dataWords_congr (wordsReached_le h.begins) (by omega) same
  have chunk := same 2 (by omega)
  have reached : wordsReached other bits.length = wordsReached block bits.length := by
    rw [wordsReached, wordsReached, chunk]
  refine { h with announced := ?_, begins := ?_, cancels := ?_ }
  · rw [same 0 (by omega), h.announced]
  · refine (begins_take h.begins).trans ?_
    rw [← words, ← chunk, bitString, List.prefix_append_right_inj]
    conv => rhs; rw [← List.take_append_drop (wordsReached block bits.length) (dataWords other)]
    rw [List.flatMap_append]
    exact List.prefix_append _ _
  · rw [reached, checkSumOf, words, same 1 (by omega), chunk]
    exact h.cancels

/-- **Expansion is exact**: a block is expanded to some data if and only if it represents them, and
nothing below the words that its script reaches into has a part in it. -/
theorem unpack_eq_ok_iff_represents (trailed : trailerSize ≤ block.size)
    (shorter : block.size < n) :
    (∀ data, unpack block n = .ok data ↔ data.size = n ∧ ∃ bits, Represents block bits data) ∧
      ∀ bits data, Represents block bits data → data.size = n →
        ∀ other : Bytes, other.size < n → 4 * (3 + wordsReached block bits.length) ≤ other.size →
          (∀ i < 3 + wordsReached block bits.length, tailWord other i = tailWord block i) →
          unpack other n = .ok data := by
  refine ⟨fun data => ⟨exists_represents_of_unpack trailed shorter, ?_⟩, ?_⟩
  · rintro ⟨rfl, bits, h⟩
    exact unpack_eq_ok_of_represents trailed shorter h
  · rintro bits data h rfl other small long same
    have trailed' : trailerSize ≤ other.size := by
      rw [trailerSize]
      omega
    exact unpack_eq_ok_of_represents trailed' small (h.of_agree long same)

/-- A block with every kind of copy in it, whose chunk holds no bits. -/
theorem represents_alphabet :
    let block : Bytes := #[192, 1, 6, 80, 90, 96, 120, 9, 132, 61, 61, 8, 0, 96, 107, 208, 200, 216,
      196, 196, 0, 0, 0, 1, 214, 228, 236, 68, 0, 0, 0, 33]
    let data : Bytes := "abcabcabcabcdeabcabxyzzzzzzzzabcd".toUTF8.data
    trailerSize ≤ block.size ∧ block.size < 33 ∧
      data.size = 33 ∧ ∃ bits, Represents block bits data := by
  intro block data
  have expanded : unpack block 33 = .ok data := by decide +kernel
  have trailed : trailerSize ≤ block.size := by decide
  have shorter : block.size < 33 := by decide
  exact ⟨trailed, shorter, ((unpack_eq_ok_iff_represents trailed shorter).1 data).1 expanded⟩

end Cinematic.Packing
