import Cinematic.Proofs.Packing.Watch

/-!
# Expansion stays where it belongs

Whatever a buffer holds, expanding the block in it **touches nothing it should not**
(`Cinematic.Packing.unpackInPlace_contained`). It ends; it reads and writes inside the data only; it
writes no byte that belongs to words still to be read; it writes from the end of the data downwards,
each byte once, and all of them if it succeeds; and what stands beside the block shows neither in
what it answers nor in the data.

All of it hangs on one invariant, `Cinematic.Packing.Unpacker.Balanced`: as much is left to write as
there is room between the start of the data and the byte written last. What a stretch of an
expansion has done is collected in `Cinematic.Packing.Trail`, and trails are put together end to
end. The bits of the block decide only which stretches there are.
-/

namespace Cinematic.Packing

/-! ### What is allowed -/

/-- **As much is left to write as there is room.** -/
structure Unpacker.Balanced (u : Unpacker) : Prop where
  room : u.start + u.remaining = u.target
  target : u.target ≤ u.buffer.size
  source : u.source ≤ u.buffer.size

/-- The acts that an expansion may do in a state. It reads bytes of the next word of the block and
bytes that it has written, and it writes the byte below those, which must be no unread one. -/
def Act.Allowed (u : Unpacker) : Act → Prop
  | .pause => True
  | .look pos => pos < u.buffer.size ∧
      (4 ≤ u.source ∧ u.source - 4 ≤ pos ∧ pos < u.source ∨ u.target ≤ pos)
  | .put pos => pos < u.buffer.size ∧ u.source ≤ pos ∧ u.start ≤ pos ∧ pos + 1 = u.target ∧
      1 ≤ u.remaining
  | .stray _ => False

/-- An allowed act in a balanced state, in a buffer of a given size whose data begin at a given
place. -/
structure Sight.Safe (start size : Nat) (s : Sight) : Prop where
  start : s.state.start = start
  size : s.state.buffer.size = size
  balanced : s.state.Balanced
  allowed : s.act.Allowed s.state

/-- A byte of the trailer is read, in a buffer of a given size. -/
def Sight.InTrailer (packed size : Nat) (s : Sight) : Prop :=
  s.state.buffer.size = size ∧
    ∃ pos, s.act = .look pos ∧ packed - trailerSize ≤ pos ∧ pos < packed ∧ pos < size

/-- The refusals that come before anything is written. -/
def UnpackError.isEarly : UnpackError → Bool
  | truncated _ | bufferTooSmall _ _ | oversized _ _ | alreadyUnpacked | lengthMismatch _ _ => true
  | sourceExhausted | outputOverrun | badReference _ _ | checksum _ => false

/-- The positions from `low` up to `high`, from the last one down. -/
def downTo (low high : Nat) : List Nat := (List.range' low (high - low)).reverse

theorem downTo_self (n : Nat) : downTo n n = [] := by
  rw [downTo, Nat.sub_self]
  rfl

/-- Going down can be interrupted anywhere. -/
theorem downTo_append {low mid high : Nat} (h : low ≤ mid) (h' : mid ≤ high) :
    downTo mid high ++ downTo low mid = downTo low high := by
  have whole : List.range' low (mid - low) ++ List.range' mid (high - mid)
      = List.range' low (high - low) := by
    have joined := List.range'_append_1 (s := low) (m := mid - low) (n := high - mid)
    rw [Nat.add_sub_cancel' h] at joined
    rw [joined]
    congr 1
    omega
  rw [downTo, downTo, downTo, ← List.reverse_append, whole]

theorem downTo_pred {n : Nat} (h : 1 ≤ n) : downTo (n - 1) n = [n - 1] := by
  rw [downTo, Nat.sub_sub_self h]
  rfl

/-! ### Trails -/

/-- **What a stretch of an expansion has done** on its way from one state to another: it has written
downwards, and everything seen was allowed. -/
structure Trail (u : Unpacker) (sights : List Sight) (v : Unpacker) : Prop where
  balanced : v.Balanced
  start : v.start = u.start
  size : v.buffer.size = u.buffer.size
  target : v.target ≤ u.target
  safe : ∀ s ∈ sights, s.Safe u.start u.buffer.size
  puts : puts sights = downTo v.target u.target
  /-- Only the bytes that were put have changed. -/
  untouched : ∀ i, i < v.target ∨ u.target ≤ i → v.buffer.byteAt i = u.buffer.byteAt i

namespace Trail

variable {u v w : Unpacker} {before after : List Sight}

/-- **Trails are put together.** -/
theorem append (h : Trail u before v) (h' : Trail v after w) : Trail u (before ++ after) w where
  balanced := h'.balanced
  start := h'.start.trans h.start
  size := h'.size.trans h.size
  target := h'.target.trans h.target
  safe := by
    intro s member
    rcases List.mem_append.1 member with early | late
    · exact h.safe s early
    · have safe := h'.safe s late
      rw [h.start, h.size] at safe
      exact safe
  puts := by rw [puts_append, h.puts, h'.puts, downTo_append h'.target h.target]
  untouched := by
    intro i out
    have lower := h'.target
    have upper := h.target
    rw [h'.untouched i (by omega), h.untouched i (by omega)]

/-- A stretch on which nothing is written. -/
theorem still {sights : List Sight} (h : u.Balanced) (buffer : v.buffer = u.buffer)
    (start : v.start = u.start) (target : v.target = u.target)
    (remaining : v.remaining = u.remaining) (source : v.source ≤ u.source)
    (safe : ∀ s ∈ sights, s.act.Allowed u ∧ s.state = u)
    (none : Packing.puts sights = []) : Trail u sights v where
  balanced := ⟨by rw [start, remaining, target, h.room], by rw [target, buffer]; exact h.target,
    by rw [buffer]; exact source.trans h.source⟩
  start := start
  size := by rw [buffer]
  target := target.le
  safe := by
    intro s member
    obtain ⟨allowed, same⟩ := safe s member
    exact ⟨by rw [same], by rw [same], by rwa [same], by rwa [same]⟩
  puts := by rw [none, target, downTo_self]
  untouched := by
    intro i _
    rw [buffer]

/-- One byte is written at the place for it. -/
theorem write (h : u.Balanced) (b : UInt8) (left : 1 ≤ u.remaining) (unread : u.source < u.target) :
    Trail u [⟨u, .put (u.target - 1)⟩]
      { u with
        buffer := u.buffer.setIfInBounds (u.target - 1) b
        target := u.target - 1
        remaining := u.remaining - 1 } := by
  have room := h.room
  have inside := h.target
  constructor
  case balanced =>
    constructor
    · change u.start + (u.remaining - 1) = u.target - 1
      omega
    · rw [Array.size_setIfInBounds]
      change u.target - 1 ≤ u.buffer.size
      omega
    · rw [Array.size_setIfInBounds]
      exact h.source
  case start => rfl
  case size => exact Array.size_setIfInBounds
  case target => exact Nat.sub_le _ _
  case safe =>
    intro s member
    have allowed : (Act.put (u.target - 1)).Allowed u := by
      refine ⟨?_, ?_, ?_, ?_, left⟩ <;> omega
    rw [List.mem_singleton.1 member]
    exact ⟨rfl, rfl, h, allowed⟩
  case puts => exact (downTo_pred (by omega)).symm
  case untouched =>
    intro i out
    change i < u.target - 1 ∨ u.target ≤ i at out
    exact Bytes.byteAt_setIfInBounds_of_ne (by omega) b

end Trail

/-! ### Computations that keep to the rules -/

/-- **What may become of a computation under watch**: it leaves a trail, and if it succeeds it has
written a number of bytes at least. It does not refuse with one of the early refusals. -/
inductive Tidy {α : Type} (least : Nat) (w : Watched) :
    EStateM.Result UnpackError Watched α → Prop
  /-- It succeeds. -/
  | ok (a : α) {v : Watched} {sights : List Sight} (seen : v.sights = w.sights ++ sights)
    (trail : Trail w.unpacker sights v.unpacker)
    (progress : v.unpacker.remaining + least ≤ w.unpacker.remaining) : Tidy least w (.ok a v)
  /-- It fails. -/
  | error {e : UnpackError} {v : Watched} {sights : List Sight}
    (seen : v.sights = w.sights ++ sights) (trail : Trail w.unpacker sights v.unpacker)
    (late : e.isEarly = false) : Tidy least w (.error e v)

/-- A computation that keeps to the rules wherever it begins. -/
def Careful {α : Type} (least : Nat) (c : Watching α) : Prop :=
  ∀ w, w.unpacker.Balanced → Tidy least w (c w)

section Careful

variable {α β : Type} {m n : Nat} {w v : Watched}

/-- A computation may follow a trail. -/
theorem Tidy.prepend {r : EStateM.Result UnpackError Watched α} {sights : List Sight}
    (seen : v.sights = w.sights ++ sights) (trail : Trail w.unpacker sights v.unpacker)
    (progress : v.unpacker.remaining + m ≤ w.unpacker.remaining) (h : Tidy n v r) :
    Tidy (m + n) w r := by
  rcases h with ⟨a, seen', trail', progress'⟩ | ⟨seen', trail', late⟩
  · exact .ok a (by rw [seen', seen, List.append_assoc]) (trail.append trail') (by omega)
  · exact .error (by rw [seen', seen, List.append_assoc]) (trail.append trail') late

theorem Tidy.mono {r : EStateM.Result UnpackError Watched α} (h : Tidy m w r) (less : n ≤ m) :
    Tidy n w r := by
  rcases h with ⟨a, seen, trail, progress⟩ | ⟨seen, trail, late⟩
  · exact .ok a seen trail (by omega)
  · exact .error seen trail late

/-- An act may come first, if it is allowed and writes nothing. -/
theorem Tidy.of_noted {r : EStateM.Result UnpackError Watched α} (act : Act)
    (balanced : w.unpacker.Balanced) (allowed : act.Allowed w.unpacker)
    (none : puts [⟨w.unpacker, act⟩] = []) (h : Tidy n (w.noted act) r) : Tidy n w r := by
  have trail : Trail w.unpacker [⟨w.unpacker, act⟩] (w.noted act).unpacker := by
    refine .still balanced rfl rfl rfl rfl (Nat.le_refl _) ?_ none
    intro s member
    rw [List.mem_singleton.1 member]
    exact ⟨allowed, rfl⟩
  rw [← Nat.zero_add n]
  exact h.prepend rfl trail (Nat.le_refl _)

theorem Tidy.of_paused {r : EStateM.Result UnpackError Watched α} (balanced : w.unpacker.Balanced)
    (h : Tidy n (w.noted .pause) r) : Tidy n w r :=
  .of_noted .pause balanced trivial rfl h

theorem Tidy.bind {c : Watching α} {f : α → Watching β} (hc : Tidy m w (c w))
    (hf : ∀ a v, v.unpacker.Balanced → Tidy n v (f a v)) : Tidy (m + n) w ((c >>= f) w) := by
  cases result : c w with
  | ok a v =>
    rw [result] at hc
    rcases hc with ⟨_, seen, trail, progress⟩
    rw [bind_eq_of_ok result]
    exact (hf a v trail.balanced).prepend seen trail progress
  | error e v =>
    rw [result] at hc
    rcases hc with _ | ⟨seen, trail, late⟩
    rw [bind_eq_of_error result]
    exact .error seen trail late

theorem Tidy.pure (a : α) (balanced : w.unpacker.Balanced) :
    Tidy 0 w ((Pure.pure a : Watching α) w) :=
  .ok a (List.append_nil _).symm
    (.still balanced rfl rfl rfl rfl (Nat.le_refl _) (by simp) rfl) (Nat.le_refl _)

theorem Tidy.refuse {e : UnpackError} (balanced : w.unpacker.Balanced) (late : e.isEarly = false) :
    Tidy n w (.error e w : EStateM.Result UnpackError Watched α) :=
  .error (List.append_nil _).symm
    (.still balanced rfl rfl rfl rfl (Nat.le_refl _) (by simp) rfl) late

/-- **Careful computations in a row** write what each of them writes. -/
theorem Careful.bind {c : Watching α} {f : α → Watching β} (hc : Careful m c)
    (hf : ∀ a, Careful n (f a)) : Careful (m + n) (c >>= f) :=
  fun w balanced => (hc w balanced).bind fun a v balanced => hf a v balanced

theorem Careful.mono {c : Watching α} (h : Careful m c) (less : n ≤ m) : Careful n c :=
  fun w balanced => (h w balanced).mono less

theorem Careful.ite {p : Prop} [Decidable p] {c d : Watching α} (hc : Careful n c)
    (hd : Careful n d) : Careful n (if p then c else d) := by
  split
  · exact hc
  · exact hd

end Careful

namespace Watched

/-! ### Each operation -/

theorem careful_fetch : Careful 0 fetch := by
  intro w balanced
  have inside := balanced.source
  by_cases enough : 4 ≤ w.unpacker.source
  · rw [fetch_eq enough]
    refine .ok _ rfl (.still balanced rfl rfl rfl rfl (Nat.sub_le _ _) ?_ (puts_looks _ _ _))
      (Nat.le_refl _)
    intro s member
    obtain ⟨k, four, rfl⟩ := List.mem_map.1 member
    rw [List.mem_range] at four
    refine ⟨⟨?_, Or.inl ⟨enough, Nat.le_add_right _ _, ?_⟩⟩, rfl⟩ <;> omega
  · rw [fetch_of_lt enough]
    exact .refuse balanced rfl

theorem careful_firstOf (word : UInt32) : Careful 0 (firstOf word) := by
  intro w balanced
  exact .ok _ (List.append_nil _).symm
    (.still balanced rfl rfl rfl rfl (Nat.le_refl _) (by simp) rfl) (Nat.le_refl _)

theorem careful_bit : Careful 0 bit := by
  intro w balanced
  refine .of_paused balanced ?_
  by_cases spent : w.unpacker.chunk >>> 1 = 0
  · rw [bit_of_spent spent]
    exact careful_fetch.bind careful_firstOf _ balanced
  · rw [bit_of_not_spent spent]
    exact .ok _ (List.append_nil _).symm
      (.still balanced rfl rfl rfl rfl (Nat.le_refl _) (by simp) rfl) (Nat.le_refl _)

theorem careful_fieldOn (count read : Nat) : Careful 0 (fieldOn count read) := by
  induction count generalizing read with
  | zero => exact fun w balanced => .pure read balanced
  | succ count ih => exact careful_bit.bind fun b => ih _

theorem careful_field (count : Nat) : Careful 0 (field count) := careful_fieldOn count 0

/-- **A byte is written only where there is room for it**, at the place below the byte written last.
-/
theorem careful_place_bind {α : Type} {n : Nat} {f : Nat → Watching α}
    (hf : ∀ w, w.unpacker.Balanced → Room w.unpacker → Tidy n w (f (w.unpacker.target - 1) w)) :
    Careful n (place >>= f) := by
  intro w balanced
  refine .of_paused balanced ?_
  by_cases room : Room w.unpacker
  · rw [bind_eq_of_ok (place_of_room room)]
    exact hf (w.noted .pause) balanced room
  · rw [bind_eq_of_error (place_of_not_room room)]
    exact .refuse balanced rfl

theorem tidy_write {w : Watched} (balanced : w.unpacker.Balanced) (room : Room w.unpacker)
    (b : UInt8) : Tidy 1 w (write (w.unpacker.target - 1) b w) := by
  obtain ⟨left, below, unread, -⟩ := room
  have left : 1 ≤ w.unpacker.remaining := by omega
  exact .ok () rfl (.write balanced b left (by omega)) (Nat.le_of_eq (Nat.sub_add_cancel left))

theorem careful_literals (count : Nat) : Careful count (literals count) := by
  induction count with
  | zero => exact fun w balanced => .pure () balanced
  | succ count ih =>
    refine ((careful_field 8).bind fun b => careful_place_bind (n := 1 + count)
      fun w balanced room => ?_).mono (by omega)
    exact (tidy_write balanced room b.toUInt8).bind fun _ => ih

/-- A byte is copied from above the place where it goes, so from one that has been written. -/
theorem careful_copy (distance count : Nat) : Careful count (copy distance count) := by
  induction count with
  | zero => exact fun w balanced => .pure () balanced
  | succ count ih =>
    refine (careful_place_bind (n := 1 + count) fun w balanced room => ?_).mono (by omega)
    by_cases bad : distance = 0 ∨ w.unpacker.buffer.size ≤ w.unpacker.target - 1 + distance
    · rw [bind_eq_of_error (earlier_of_bad bad)]
      exact .refuse balanced rfl
    · -- the byte stands above the place, among those that have been written
      have below := room.2.1
      rw [bind_eq_of_ok (earlier_of_good bad)]
      refine .of_noted (.look (w.unpacker.target - 1 + distance)) balanced
        ⟨by omega, Or.inr (by omega)⟩ rfl ?_
      exact (tidy_write (w := w.noted _) balanced room _).bind fun _ => ih

/-- **A token writes something.** -/
theorem careful_token : Careful 1 token := by
  have literal (width extra : Nat) :
      Careful 1 (field width >>= fun count => literals (count + (extra + 1))) :=
    (careful_field width).bind (n := 1) fun count => (careful_literals _).mono (by omega)
  have near (width extra : Nat) :
      Careful 1 (field width >>= fun distance => copy distance (extra + 1)) :=
    (careful_field width).bind (n := 1) fun distance => (careful_copy _ _).mono (by omega)
  have far : Careful 1 (perform 0b110) :=
    (careful_field 8).bind (n := 1) fun count => (careful_field 12).bind (n := 1) fun distance =>
      (careful_copy _ _).mono (by omega)
  have split {c d : Watching Unit} (hc : Careful 1 c) (hd : Careful 1 d) :
      Careful 1 (bit >>= fun b => if b then c else d) :=
    careful_bit.bind (n := 1) fun b => .ite hc hd
  rw [token_eq]
  exact split (split (split (literal 8 8) far) (split (near 10 3) (near 9 2)))
    (split (near 8 1) (literal 3 0))

theorem careful_tokens (bound : Nat) : Careful 0 (tokens bound) := by
  induction bound with
  | zero => exact fun w balanced => .of_paused balanced (.pure () balanced)
  | succ bound ih =>
    intro w balanced
    rw [tokens_succ]
    refine .of_paused balanced ?_
    split
    · exact .pure () balanced
    · exact (careful_token.bind fun _ => ih) (w.noted .pause) balanced |>.mono (Nat.zero_le _)

/-- What a successful token leaves to be written. -/
theorem token_progress {w v : Watched} (balanced : w.unpacker.Balanced)
    (carried : token w = .ok () v) :
    v.unpacker.Balanced ∧ v.unpacker.remaining + 1 ≤ w.unpacker.remaining := by
  have tidy := careful_token w balanced
  rw [carried] at tidy
  rcases tidy with ⟨_, seen, trail, progress⟩
  exact ⟨trail.balanced, progress⟩

/-- **As many tokens as bytes are enough**, and more make no difference. -/
theorem tokens_eq_of_le {bound more : Nat} {w : Watched} (balanced : w.unpacker.Balanced)
    (enough : w.unpacker.remaining ≤ bound) (also : w.unpacker.remaining ≤ more) :
    tokens bound w = tokens more w := by
  induction bound generalizing more w with
  | zero =>
    have finished : w.unpacker.remaining = 0 := by omega
    cases more with
    | zero => rfl
    | succ more =>
      rw [tokens_succ, if_pos finished]
      rfl
  | succ bound ih =>
    by_cases finished : w.unpacker.remaining = 0
    · rw [tokens_succ, if_pos finished]
      cases more with
      | zero => rfl
      | succ more => rw [tokens_succ, if_pos finished]
    · -- both have a token to carry out, and it writes something
      obtain ⟨more, rfl⟩ : ∃ less, more = less + 1 := ⟨more - 1, by omega⟩
      rw [tokens_succ, tokens_succ, if_neg finished, if_neg finished]
      cases carried : token (w.noted .pause) with
      | error e v => rw [bind_eq_of_error carried, bind_eq_of_error carried]
      | ok a v =>
        rw [bind_eq_of_ok carried, bind_eq_of_ok carried]
        obtain ⟨balanced, progress⟩ := token_progress (w := w.noted .pause) balanced carried
        change v.unpacker.remaining + 1 ≤ w.unpacker.remaining at progress
        exact ih balanced (by omega) (by omega)

/-- **Enough tokens leave nothing to be written.** -/
theorem tokens_finish {bound : Nat} {w v : Watched} (balanced : w.unpacker.Balanced)
    (enough : w.unpacker.remaining ≤ bound) (carried : tokens bound w = .ok () v) :
    v.unpacker.remaining = 0 := by
  induction bound generalizing w with
  | zero =>
    cases carried
    exact Nat.le_zero.1 enough
  | succ bound ih =>
    rw [tokens_succ] at carried
    split at carried
    · next finished =>
      cases carried
      exact finished
    · obtain ⟨⟨⟩, v', first, carried⟩ := bind_eq_ok.1 carried
      obtain ⟨balanced, progress⟩ := token_progress (w := w.noted .pause) balanced first
      change v'.unpacker.remaining + 1 ≤ w.unpacker.remaining at progress
      exact ih balanced (by omega) carried

/-! ### The trailer -/

/-- What reading a trailer comes to: a refusal that leaves the buffer, or as much to write as there
is room. -/
inductive Settled (w : Watched) (sights : List Sight) :
    EStateM.Result UnpackError Watched Unit → Prop
  /-- The trailer is refused. -/
  | refused {e : UnpackError} {u : Unpacker} (early : e.isEarly = true)
    (buffer : u.buffer = w.unpacker.buffer) : Settled w sights (.error e ⟨u, w.sights ++ sights⟩)
  /-- It is accepted. -/
  | accepted {u : Unpacker} (buffer : u.buffer = w.unpacker.buffer)
    (start : u.start = w.unpacker.start) (target : u.target = w.unpacker.target)
    (source : u.source ≤ w.unpacker.source)
    (remaining : u.remaining = w.unpacker.target - w.unpacker.start) :
    Settled w sights (.ok () ⟨u, w.sights ++ sights⟩)

theorem settle_eq (length check chunk : UInt32) (w : Watched) :
    settle length check chunk w =
      if length = 0 then .error .alreadyUnpacked w
      else if length.toNat ≠ w.unpacker.target - w.unpacker.start then
        .error (.lengthMismatch length (w.unpacker.target - w.unpacker.start)) w
      else .ok () { w with unpacker := { w.unpacker with
        remaining := length.toNat, check := check ^^^ chunk, chunk := chunk } } := by
  change (if length = 0 then throw .alreadyUnpacked
    else if length.toNat ≠ w.unpacker.target - w.unpacker.start then
      throw (.lengthMismatch length (w.unpacker.target - w.unpacker.start))
    else does (set { w.unpacker with
      remaining := length.toNat, check := check ^^^ chunk, chunk := chunk }) : Watching Unit) w = _
  split
  · rfl
  · split
    · rfl
    · rfl

theorem inTrailer_looks {u : Unpacker} {pos packed : Nat} (packed_le : packed ≤ u.buffer.size)
    (above : packed - trailerSize ≤ pos) (below : pos + 4 ≤ packed) :
    ∀ s ∈ looks u pos 4, s.InTrailer packed u.buffer.size := by
  intro s member
  obtain ⟨k, four, rfl⟩ := List.mem_map.1 member
  rw [List.mem_range] at four
  exact ⟨rfl, pos + k, rfl, by omega, by omega, by omega⟩

/-- **The trailer is read and nothing else**, before anything is written. -/
theorem trailer_settled {w : Watched} (trailed : trailerSize ≤ w.unpacker.source)
    (inside : w.unpacker.source ≤ w.unpacker.buffer.size) :
    ∃ sights, (∀ s ∈ sights, s.InTrailer w.unpacker.source w.unpacker.buffer.size) ∧
      puts sights = [] ∧ Settled w sights (trailer w) := by
  obtain ⟨u, seen⟩ := w
  change trailerSize ≤ u.source at trailed
  change u.source ≤ u.buffer.size at inside
  have twelve : 12 ≤ u.source := trailed
  -- three words are read, from the end of the block downwards
  let u₁ : Unpacker := { u with source := u.source - 4 }
  let u₂ : Unpacker := { u with source := u.source - 4 - 4 }
  let u₃ : Unpacker := { u with source := u.source - 4 - 4 - 4 }
  let first := looks u (u.source - 4) 4
  let second := looks u₁ (u.source - 4 - 4) 4
  let third := looks u₂ (u.source - 4 - 4 - 4) 4
  obtain ⟨length, fetch₁⟩ : ∃ length, fetch ⟨u, seen⟩ = .ok length ⟨u₁, seen ++ first⟩ :=
    ⟨_, fetch_eq (by simp; omega)⟩
  obtain ⟨check, fetch₂⟩ : ∃ check, fetch ⟨u₁, seen ++ first⟩
      = .ok check ⟨u₂, seen ++ first ++ second⟩ := ⟨_, fetch_eq (by simp [u₁]; omega)⟩
  obtain ⟨chunk, fetch₃⟩ : ∃ chunk, fetch ⟨u₂, seen ++ first ++ second⟩
      = .ok chunk ⟨u₃, seen ++ first ++ second ++ third⟩ := ⟨_, fetch_eq (by simp [u₂]; omega)⟩
  have regrouped : seen ++ first ++ second ++ third = seen ++ (first ++ second ++ third) := by
    rw [List.append_assoc, List.append_assoc, List.append_assoc]
  refine ⟨first ++ second ++ third, ?_, by simp [first, second, third], ?_⟩
  · intro s member
    rcases List.mem_append.1 member with member | member
    · rcases List.mem_append.1 member with member | member
      · exact inTrailer_looks inside (by simp only [trailerSize]; omega) (by omega) s member
      · exact inTrailer_looks (u := u₁) inside (by simp only [trailerSize]; omega) (by omega) s
          member
    · exact inTrailer_looks (u := u₂) inside (by simp only [trailerSize]; omega) (by omega) s member
  · rw [trailer, bind_eq_of_ok fetch₁, bind_eq_of_ok fetch₂, bind_eq_of_ok fetch₃, settle_eq,
      regrouped]
    split
    · exact .refused rfl rfl
    · split
      · exact .refused rfl rfl
      · next same =>
        exact .accepted rfl rfl rfl (by change u.source - 4 - 4 - 4 ≤ u.source; omega)
          (not_not.1 same)

/-! ### Whole expansions -/

theorem careful_checkSum : Careful 0 (does Unpacker.checkSum) := by
  intro w balanced
  by_cases zero : w.unpacker.check = 0
  · have passed : Unpacker.checkSum w.unpacker = .ok () w.unpacker := by
      rw [checkSum_eq, if_pos zero]
    rw [does_of_ok passed]
    exact .pure () balanced
  · have failed :
        Unpacker.checkSum w.unpacker = .error (.checksum w.unpacker.check) w.unpacker := by
      rw [checkSum_eq, if_neg zero]
    rw [does_of_error failed]
    exact .refuse balanced rfl

/-- What comes after the trailer. -/
def decode (bound : Nat) : Watching Unit := tokens bound >>= fun _ => does Unpacker.checkSum

theorem careful_decode (bound : Nat) : Careful 0 (decode bound) :=
  (careful_tokens bound).bind fun _ => careful_checkSum

theorem decode_eq_of_le {bound more : Nat} {w : Watched} (balanced : w.unpacker.Balanced)
    (enough : w.unpacker.remaining ≤ bound) (also : w.unpacker.remaining ≤ more) :
    decode bound w = decode more w := by
  have same := tokens_eq_of_le balanced enough also
  cases carried : tokens more w with
  | ok a v => rw [decode, decode, bind_eq_of_ok (same.trans carried), bind_eq_of_ok carried]
  | error e v =>
    rw [decode, decode, bind_eq_of_error (same.trans carried), bind_eq_of_error carried]

theorem decode_finish {bound : Nat} {w v : Watched} (balanced : w.unpacker.Balanced)
    (enough : w.unpacker.remaining ≤ bound) (decoded : decode bound w = .ok () v) :
    v.unpacker.remaining = 0 := by
  obtain ⟨⟨⟩, v', carried, checked⟩ := bind_eq_ok.1 decoded
  have finished := tokens_finish balanced enough carried
  have unchanged : v.unpacker = v'.unpacker := by
    have same := (Erases.does Unpacker.checkSum) v'
    rw [checked, checkSum_eq] at same
    split at same
    · injection same
    · cases same
  rw [unchanged, finished]

end Watched

/-! ### Runs in place -/

section InPlace

open Watched

variable {buffer other : Bytes} {packed n bound : Nat}

theorem size_loaded (packed : Nat) (roomy : n ≤ buffer.size) :
    (loaded buffer packed n).buffer.size = n := by
  simp only [loaded, Array.size_extract]
  omega

theorem run_of_refused {w v : Watched} {e : UnpackError} (h : trailer w = .error e v) :
    Watched.run bound w = .error e v :=
  bind_eq_of_error h

theorem run_of_accepted {w v : Watched} (h : trailer w = .ok () v) :
    Watched.run bound w = decode bound v :=
  bind_eq_of_ok h

/-- **How a run in place begins**: its trailer is refused and the buffer stays as it is, or decoding
begins in a balanced state with all of the data to be written. -/
theorem run_cases (trailed : trailerSize ≤ packed) (shorter : packed ≤ n)
    (roomy : n ≤ buffer.size) :
    ∃ sights, (∀ s ∈ sights, s.InTrailer packed n) ∧ puts sights = [] ∧
      ((∃ e u, e.isEarly = true ∧ u.buffer = buffer.extract 0 n ∧
          trailer ⟨loaded buffer packed n, []⟩ = .error e ⟨u, sights⟩) ∨
        ∃ u, u.Balanced ∧ u.buffer = buffer.extract 0 n ∧ u.start = 0 ∧ u.target = n ∧
          trailer ⟨loaded buffer packed n, []⟩ = .ok () ⟨u, sights⟩) := by
  have size := size_loaded packed roomy
  have top : (loaded buffer packed n).target = n := size
  obtain ⟨sights, inTrailer, none, settled⟩ :=
    trailer_settled (w := ⟨loaded buffer packed n, []⟩) trailed (by rw [size]; exact shorter)
  rw [size] at inTrailer
  refine ⟨sights, inTrailer, none, ?_⟩
  generalize trailer ⟨loaded buffer packed n, []⟩ = r at settled
  rcases settled with ⟨early, same⟩ | ⟨same, start, target, source, remaining⟩
  · exact Or.inl ⟨_, _, early, same, rfl⟩
  · refine Or.inr ⟨_, ?_, same, start, target.trans top, rfl⟩
    change _ ≤ packed at source
    change _ = 0 at start
    change _ = (loaded buffer packed n).target - 0 at remaining
    change _ = (loaded buffer packed n).target at target
    constructor
    · omega
    · rw [same, size, target, top]
    · rw [same, size]
      omega

/-- More tokens than bytes make no difference. -/
theorem run_eq_of_le (trailed : trailerSize ≤ packed) (shorter : packed ≤ n)
    (roomy : n ≤ buffer.size) (enough : n ≤ bound) :
    Watched.run bound ⟨loaded buffer packed n, []⟩
      = Watched.run n ⟨loaded buffer packed n, []⟩ := by
  obtain ⟨sights, -, -, ⟨e, u, -, -, refused⟩ | ⟨u, balanced, -, start, target, accepted⟩⟩ :=
    run_cases trailed shorter roomy
  · rw [run_of_refused refused, run_of_refused refused]
  · have room := balanced.room
    rw [run_of_accepted accepted, run_of_accepted accepted]
    exact decode_eq_of_le (w := ⟨u, sights⟩) balanced (by change u.remaining ≤ bound; omega)
      (by change u.remaining ≤ n; omega)

/-- **Without the watch, a run in place is what it was.** -/
theorem forget_run (trailed : trailerSize ≤ packed) (shorter : packed ≤ n)
    (roomy : n ≤ buffer.size) :
    forget (Watched.run n ⟨loaded buffer packed n, []⟩)
      = Unpacker.run (loaded buffer packed n) := by
  rw [erases_run n ⟨loaded buffer packed n, []⟩]
  change (Unpacker.trailer >>= fun _ => Unpacker.tokens n >>= fun _ => Unpacker.checkSum)
    (loaded buffer packed n) = _
  have begun := erases_trailer ⟨loaded buffer packed n, []⟩
  change _ = Unpacker.trailer (loaded buffer packed n) at begun
  obtain ⟨sights, -, -, ⟨e, u, -, -, refused⟩ | ⟨u, balanced, -, start, target, accepted⟩⟩ :=
    run_cases trailed shorter roomy
  · rw [refused] at begun
    exact (bind_eq_of_error begun.symm).trans (bind_eq_of_error begun.symm).symm
  · -- as many tokens are allowed as the trailer announces bytes
    have room := balanced.room
    have all : u.remaining = n := by omega
    rw [accepted] at begun
    refine (bind_eq_of_ok begun.symm).trans (Eq.trans ?_ (bind_eq_of_ok begun.symm).symm)
    change _ = (Unpacker.tokens u.remaining >>= fun _ => Unpacker.checkSum) u
    rw [all]

/-- A run that succeeds has nothing left to write, and its buffer is as long as it was. -/
theorem finished_of_run {u : Unpacker} (trailed : trailerSize ≤ packed) (shorter : packed ≤ n)
    (roomy : n ≤ buffer.size) (ran : Unpacker.run (loaded buffer packed n) = .ok () u) :
    u.remaining = 0 ∧ u.buffer.size = n := by
  rw [← forget_run trailed shorter roomy] at ran
  obtain ⟨sights, -, -, ⟨e, u, -, -, refused⟩ | ⟨v, balanced, same, start, target, accepted⟩⟩ :=
    run_cases trailed shorter roomy
  · rw [run_of_refused refused] at ran
    cases ran
  · have room := balanced.room
    have tidy := careful_decode n ⟨v, sights⟩ balanced
    rw [run_of_accepted accepted] at ran
    cases decoded : decode n ⟨v, sights⟩ with
    | error e w =>
      rw [decoded] at ran
      cases ran
    | ok a w =>
      rw [decoded] at ran tidy
      cases ran
      rcases tidy with ⟨_, seen, trail, -⟩
      refine ⟨decode_finish (w := ⟨v, sights⟩) balanced ?_ decoded, trail.size.trans ?_⟩
      · change v.remaining ≤ n
        omega
      · change v.buffer.size = n
        rw [same, Array.size_extract]
        omega

/-! ### What stands beside the block -/

/-- Two runs of one block in buffers that may differ beside it. -/
theorem run_agree {block : Bytes} (shorter : block.size ≤ n) (roomy : n ≤ buffer.size)
    (roomy' : n ≤ other.size) (begins : buffer.extract 0 block.size = block)
    (begins' : other.extract 0 block.size = block) (trailed : trailerSize ≤ block.size) :
    (∃ u, Unpacker.run (loaded buffer block.size n) = .ok () u ∧
        ∃ v, Unpacker.run (loaded other block.size n) = .ok () v ∧ v.buffer = u.buffer) ∨
      ∃ e u v, Unpacker.run (loaded buffer block.size n) = .error e u ∧
        Unpacker.run (loaded other block.size n) = .error e v := by
  have lower := loaded_inStep_loaded shorter roomy roomy' begins begins'
  have upper := loaded_inStep_loaded shorter roomy' roomy begins' begins
  cases here : Unpacker.run (loaded buffer block.size n) with
  | ok a u =>
    rw [here] at lower upper
    generalize there : Unpacker.run (loaded other block.size n) = r at lower upper
    rcases lower with @⟨_, _, v, tracks⟩
    have same := tracks.extract_eq (finished_of_run trailed shorter roomy' there).1
    rw [Array.extract_size] at same
    exact Or.inl ⟨u, rfl, v, rfl, same⟩
  | error e u =>
    rw [here] at lower upper
    generalize Unpacker.run (loaded other block.size n) = r at lower upper
    rcases lower with _ | ⟨_, _, v⟩ | _
    · exact Or.inr ⟨e, u, v, rfl, rfl⟩
    · -- the lower run has overrun, and the roles can be changed
      rcases upper with _ | ⟨_, v, _⟩ | ⟨v, _⟩
      · exact Or.inr ⟨_, u, v, rfl, rfl⟩
      · exact Or.inr ⟨_, u, v, rfl, rfl⟩

/-- **What stands beside a block shows nowhere**: the answer is the same, and so are the data. -/
theorem unpackInPlace_agree (roomy : n ≤ buffer.size) (roomy' : n ≤ other.size)
    (same : ∀ i < packed, other.byteAt i = buffer.byteAt i) :
    (unpackInPlace other packed n).2 = (unpackInPlace buffer packed n).2 ∧
      ((unpackInPlace buffer packed n).2 = .ok () →
        (unpackInPlace other packed n).1.extract 0 n
          = (unpackInPlace buffer packed n).1.extract 0 n) := by
  by_cases small : packed < trailerSize
  · rw [unpackInPlace, if_pos small, unpackInPlace, if_pos small]
    refine ⟨rfl, fun ok => ?_⟩
    cases ok
  by_cases long : n < packed
  · rw [unpackInPlace, if_neg small, if_neg (by omega), if_pos long, unpackInPlace, if_neg small,
      if_neg (by omega), if_pos long]
    refine ⟨rfl, fun ok => ?_⟩
    cases ok
  · -- the bytes are looked at only here, and both buffers begin with the same block
    have shorter : packed ≤ n := by omega
    have trailed : trailerSize ≤ packed := by omega
    obtain ⟨block, begins, size⟩ : ∃ block, buffer.extract 0 packed = block ∧ block.size = packed :=
      ⟨_, rfl, by rw [Array.size_extract]; omega⟩
    have begins' : other.extract 0 packed = block := by
      refine Bytes.ext_byteAt (by rw [Array.size_extract]; omega) fun i inside => ?_
      rw [Array.size_extract] at inside
      rw [← begins, Bytes.byteAt_extract (by omega), Bytes.byteAt_extract (by omega), Nat.zero_add,
        same i (by omega)]
    subst size
    rw [unpackInPlace_eq trailed shorter roomy, unpackInPlace_eq trailed shorter roomy']
    rcases run_agree shorter roomy roomy' begins begins' trailed with
      ⟨u, here, v, there, equal⟩ | ⟨e, u, v, here, there⟩
    · rw [here, there]
      have size := (finished_of_run trailed shorter roomy here).2
      refine ⟨rfl, fun _ => ?_⟩
      change (v.buffer ++ _).extract 0 n = (u.buffer ++ _).extract 0 n
      rw [equal, ← size, Array.extract_append_left, Array.extract_append_left]
    · rw [here, there]
      refine ⟨rfl, fun ok => ?_⟩
      cases ok

/-! ### What an expansion in place may do -/

/-- **An expansion in place that keeps to its bounds**: `after` is what it leaves of the buffer, and
`sights` what it has been seen doing. -/
structure Contained (buffer : Bytes) (packed n : Nat) (after : Bytes)
    (result : Except UnpackError Unit) (sights : List Sight) : Prop where
  size : after.size = buffer.size
  /-- Beyond the data everything stays. -/
  beyond : ∀ i, n ≤ i → after.byteAt i = buffer.byteAt i
  /-- The early refusals leave the whole buffer. -/
  unchanged : ∀ e, result = .error e → e.isEarly = true → after = buffer
  /-- The trailer is read first, and then nothing is done that is not allowed. -/
  safe : ∃ first rest, sights = first ++ rest ∧ (∀ s ∈ first, s.InTrailer packed n) ∧
    ∀ s ∈ rest, s.Safe 0 n
  /-- The bytes written are those from `low` on, each of them once, from the last one down; if it
  succeeds they are all there are. The bytes below stay. -/
  written : ∃ low ≤ n, puts sights = downTo low n ∧ (result = .ok () → low = 0) ∧
    ∀ i < low, after.byteAt i = buffer.byteAt i

/-- A refusal before anything is written. -/
theorem contained_of_early {e : UnpackError} {sights : List Sight}
    (inTrailer : ∀ s ∈ sights, s.InTrailer packed n) (none : puts sights = []) :
    Contained buffer packed n buffer (.error e) sights where
  size := rfl
  beyond _ _ := rfl
  unchanged _ _ _ := rfl
  safe := ⟨sights, [], (List.append_nil _).symm, inTrailer, by simp⟩
  written := ⟨n, Nat.le_refl n, by rw [none, downTo_self], (fun ok => nomatch ok), fun _ _ => rfl⟩

/-- The buffer that a run in place leaves, byte by byte. -/
theorem byteAt_append_extract {region : Bytes} (size : region.size = n) (roomy : n ≤ buffer.size)
    (i : Nat) : Bytes.byteAt (region ++ buffer.extract n buffer.size) i
      = if i < n then region.byteAt i else buffer.byteAt i := by
  by_cases inside : i < n
  · rw [if_pos inside, Bytes.byteAt_append_left (by omega)]
  · rw [if_neg inside, Bytes.byteAt_append_right (by omega), size]
    by_cases here : i < buffer.size
    · rw [Bytes.byteAt_extract (by omega), Nat.add_sub_cancel' (by omega)]
    · rw [Bytes.byteAt_of_size_le (by rw [Array.size_extract]; omega),
        Bytes.byteAt_of_size_le (by omega)]

/-- **A trail in the first bytes of a buffer keeps to its bounds.** -/
theorem contained_of_trail {u v : Unpacker} {first rest : List Sight}
    {result : Except UnpackError Unit} (roomy : n ≤ buffer.size)
    (inTrailer : ∀ s ∈ first, s.InTrailer packed n) (none : puts first = [])
    (same : u.buffer = buffer.extract 0 n) (start : u.start = 0) (target : u.target = n)
    (trail : Trail u rest v) (late : ∀ e, result = .error e → e.isEarly = false)
    (finished : result = .ok () → v.remaining = 0) :
    Contained buffer packed n (v.buffer ++ buffer.extract n buffer.size) result
      (first ++ rest) := by
  have whole : u.buffer.size = n := by
    rw [same, Array.size_extract]
    omega
  have size : v.buffer.size = n := trail.size.trans whole
  have lower := trail.target
  have room := trail.balanced.room
  have begun := trail.start
  constructor
  case size =>
    rw [Array.size_append, Array.size_extract, size]
    omega
  case beyond =>
    intro i out
    rw [byteAt_append_extract size roomy, if_neg (by omega)]
  case unchanged =>
    intro e failed early
    rw [late e failed] at early
    cases early
  case safe =>
    refine ⟨first, rest, rfl, inTrailer, ?_⟩
    have safe := trail.safe
    rwa [start, whole] at safe
  case written =>
    refine ⟨v.target, by omega, ?_, fun ok => ?_, fun i below => ?_⟩
    · rw [puts_append, none, trail.puts, target, List.nil_append]
    · have done := finished ok
      omega
    · rw [byteAt_append_extract size roomy, if_pos (by omega), trail.untouched i (Or.inl below),
        same, Bytes.byteAt_extract (by omega), Nat.zero_add]

/-- **A run in place keeps to its bounds.** -/
theorem contained_run (trailed : trailerSize ≤ packed) (shorter : packed ≤ n)
    (roomy : n ≤ buffer.size) :
    let result := Watched.run n ⟨loaded buffer packed n, []⟩
    Contained buffer packed n (outcome buffer n (forget result)).1
      (outcome buffer n (forget result)).2 (sightsOf result) := by
  intro result
  obtain ⟨first, inTrailer, none, ⟨e, u, -, same, refused⟩ |
    ⟨u, balanced, same, start, target, accepted⟩⟩ := run_cases trailed shorter roomy
  · -- the trailer is refused, and the buffer is put together again
    have ran : result = .error e ⟨u, first⟩ := run_of_refused refused
    have whole : u.buffer ++ buffer.extract n buffer.size = buffer := by
      rw [same, Array.extract_append_extract]
      simp [roomy]
    rw [ran]
    change Contained buffer packed n (u.buffer ++ buffer.extract n buffer.size) (.error e) first
    rw [whole]
    exact contained_of_early inTrailer none
  · have room := balanced.room
    have enough : u.remaining ≤ n := by omega
    have ran : result = decode n ⟨u, first⟩ := run_of_accepted accepted
    have tidy := careful_decode n ⟨u, first⟩ balanced
    rw [ran]
    cases decoded : decode n ⟨u, first⟩ with
    | ok a v =>
      rw [decoded] at tidy
      rcases tidy with ⟨_, seen, trail, -⟩
      change Contained buffer packed n (v.unpacker.buffer ++ _) (.ok ()) v.sights
      rw [seen]
      exact contained_of_trail roomy inTrailer none same start target trail (fun e h => nomatch h)
        fun _ => decode_finish (w := ⟨u, first⟩) balanced enough decoded
    | error e v =>
      rw [decoded] at tidy
      rcases tidy with _ | ⟨seen, trail, late⟩
      change Contained buffer packed n (v.unpacker.buffer ++ _) (.error e) v.sights
      rw [seen]
      refine contained_of_trail roomy inTrailer none same start target trail ?_ (fun h => nomatch h)
      intro e' failed
      cases failed
      exact late

/-- **An expansion in place ends and keeps to its bounds**, however many tokens it may take. -/
theorem exists_contained (buffer : Bytes) (packed n : Nat) :
    ∃ sights, (∀ bound, n ≤ bound →
        watchedInPlace bound buffer packed n = (unpackInPlace buffer packed n, sights)) ∧
      Contained buffer packed n (unpackInPlace buffer packed n).1 (unpackInPlace buffer packed n).2
        sights := by
  -- the sizes are compared first, and nothing is seen of that
  by_cases small : packed < trailerSize
  · have refused : unpackInPlace buffer packed n = (buffer, .error (.truncated packed)) :=
      if_pos small
    rw [refused]
    exact ⟨[], fun bound _ => if_pos small, contained_of_early (by simp) rfl⟩
  by_cases short : buffer.size < n
  · have refused : unpackInPlace buffer packed n
        = (buffer, .error (.bufferTooSmall buffer.size n)) := by
      rw [unpackInPlace, if_neg small, if_pos short]
    rw [refused]
    refine ⟨[], fun bound _ => ?_, contained_of_early (by simp) rfl⟩
    rw [watchedInPlace, if_neg small, if_pos short]
  by_cases long : n < packed
  · have refused : unpackInPlace buffer packed n = (buffer, .error (.oversized packed n)) := by
      rw [unpackInPlace, if_neg small, if_neg short, if_pos long]
    rw [refused]
    refine ⟨[], fun bound _ => ?_, contained_of_early (by simp) rfl⟩
    rw [watchedInPlace, if_neg small, if_neg short, if_pos long]
  · have trailed : trailerSize ≤ packed := by omega
    have shorter : packed ≤ n := by omega
    have roomy : n ≤ buffer.size := by omega
    have run := forget_run trailed shorter roomy
    refine ⟨sightsOf (Watched.run n ⟨loaded buffer packed n, []⟩), fun bound enough => ?_, ?_⟩
    · rw [watchedInPlace, if_neg small, if_neg short, if_neg long,
        run_eq_of_le trailed shorter roomy enough]
      change (outcome buffer n (forget _), _) = _
      rw [run, unpackInPlace_eq trailed shorter roomy]
    · rw [unpackInPlace_eq trailed shorter roomy, ← run]
      exact contained_run trailed shorter roomy

/-- The buffer is as long afterwards as it was. -/
theorem size_unpackInPlace (buffer : Bytes) (packed n : Nat) :
    (unpackInPlace buffer packed n).1.size = buffer.size := by
  obtain ⟨sights, -, contained⟩ := exists_contained buffer packed n
  exact contained.size

/-- **Expansion in place is contained.** For every buffer and all sizes it ends, with or without an
error, after no more tokens than there are bytes in the data, and what it does on the way keeps to
its bounds; in particular no code is a stray one. In another buffer that begins with the same block
it gives the same answer and, if it succeeds, the same data. -/
theorem unpackInPlace_contained (buffer : Bytes) (packed n : Nat) :
    (∃ sights, (∀ bound, n ≤ bound →
        watchedInPlace bound buffer packed n = (unpackInPlace buffer packed n, sights)) ∧
      Contained buffer packed n (unpackInPlace buffer packed n).1 (unpackInPlace buffer packed n).2
        sights) ∧
      ∀ other : Bytes, n ≤ buffer.size → n ≤ other.size →
        (∀ i < packed, other.byteAt i = buffer.byteAt i) →
          (unpackInPlace other packed n).2 = (unpackInPlace buffer packed n).2 ∧
            ((unpackInPlace buffer packed n).2 = .ok () →
              (unpackInPlace other packed n).1.extract 0 n
                = (unpackInPlace buffer packed n).1.extract 0 n) := by
  constructor
  · exact exists_contained buffer packed n
  · intro other roomy roomy' same
    exact unpackInPlace_agree roomy roomy' same

/-- Two buffers that begin with the same block, the second one longer and with other bytes in it. -/
theorem unpackInPlace_contained_beside :
    let block : Bytes := #[128, 3, 135, 192, 2, 2, 192, 32, 0, 88, 4, 24, 130, 89, 67, 248, 0, 0, 0,
      38]
    let buffer : Bytes := block ++ Array.replicate 18 0
    let other : Bytes := block ++ Array.replicate 22 0xaa
    38 ≤ buffer.size ∧ 38 ≤ other.size ∧ (∀ i < 20, other.byteAt i = buffer.byteAt i) ∧
      (unpackInPlace buffer 20 38).2 = .ok () ∧
      (unpackInPlace other 20 38).1.extract 0 38 = (unpackInPlace buffer 20 38).1.extract 0 38 := by
  intro block buffer other
  have roomy : 38 ≤ buffer.size := by decide
  have roomy' : 38 ≤ other.size := by decide
  have same : ∀ i < 20, other.byteAt i = buffer.byteAt i := by decide
  have expanded : (unpackInPlace buffer 20 38).2 = .ok () := by decide +kernel
  exact ⟨roomy, roomy', same, expanded,
    ((unpackInPlace_contained buffer 20 38).2 other roomy roomy' same).2 expanded⟩

end InPlace

end Cinematic.Packing
