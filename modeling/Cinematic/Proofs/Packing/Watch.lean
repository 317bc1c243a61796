import Cinematic.Proofs.Packing.InPlace

/-!
# Expansion under watch

Reading beside a buffer gives a zero byte and writing beside it does nothing, so the buffer that an
expansion leaves cannot tell whether it has stayed inside. This module has the expansion once more,
under **watch**: it keeps a list of what it has done and of the state it was in
(`Cinematic.Packing.Sight`). The buffer is touched only by `Cinematic.Packing.Watched.byte`, which
reads a single byte, and by `Cinematic.Packing.Watched.write`, and both enter the position before
they use it. The code of a token is read as a number here, so that a code which begins no token
would show.

**The watch changes nothing**: without its sights a watched expansion is an expansion
(`Cinematic.Packing.Watched.erases_run`). Each operation has one lemma to this effect, put together by
`Cinematic.Packing.Erases.bind`.
-/

namespace Cinematic.Packing

/-! ### What is seen -/

/-- What an expansion does to its buffer, and when. -/
inductive Act where
  /-- It is about to go on, with a bit, a byte or a token. -/
  | pause
  /-- It reads the byte at a position. -/
  | look (pos : Nat)
  /-- It writes the byte at a position. -/
  | put (pos : Nat)
  /-- It has read a code that begins no token. -/
  | stray (code : Nat)
deriving Repr, DecidableEq

/-- An act, and the state in which it is done. -/
structure Sight where
  /-- The state before the act. -/
  state : Unpacker
  /-- The act. -/
  act : Act
deriving Repr, DecidableEq

/-- The state of an expansion under watch. -/
structure Watched where
  /-- The state of the expansion itself. -/
  unpacker : Unpacker
  /-- What has been seen so far, first things first. -/
  sights : List Sight
deriving Repr, DecidableEq

/-- A computation under watch. -/
abbrev Watching := EStateM UnpackError Watched

/-- The positions written, in order. -/
def puts (sights : List Sight) : List Nat :=
  sights.filterMap fun s =>
    match s.act with
    | .put pos => some pos
    | _ => none

@[simp] theorem puts_append (before after : List Sight) :
    puts (before ++ after) = puts before ++ puts after := List.filterMap_append

/-! ### The expansion -/

namespace Watched

/-- Something that needs no watching. -/
def does {α : Type} (c : Unpacking α) : Watching α := fun w =>
  match c w.unpacker with
  | .ok a u => .ok a { w with unpacker := u }
  | .error e u => .error e { w with unpacker := u }

/-- The state with one act more. -/
def noted (w : Watched) (act : Act) : Watched :=
  { w with sights := w.sights ++ [⟨w.unpacker, act⟩] }

/-- Enters an act. -/
def note (act : Act) : Watching Unit := fun w => .ok () (w.noted act)

/-- Reads a byte of the buffer. -/
def byte (pos : Nat) : Watching UInt8 := do
  note (.look pos)
  does fun u => .ok (u.buffer.byteAt pos) u

/-- Reads a number byte by byte. -/
def word (pos : Nat) : Nat → Watching Nat
  | 0 => pure 0
  | width + 1 => do
    let high ← word pos width
    let low ← byte (pos + width)
    pure (high * 256 + low.toNat)

/-- The next word of the block. -/
def fetch : Watching UInt32 := do
  let source := (← does get).source
  if 4 ≤ source then
    let read ← word (source - 4) 4
    does (modify fun u => { u with source := source - 4 })
    pure read.toUInt32
  else throw .sourceExhausted

/-- The next bit. -/
def bit : Watching Bool := do
  note .pause
  let chunk := (← does get).chunk
  if chunk >>> 1 = 0 then
    let word ← fetch
    does (modify fun u => { u with check := u.check ^^^ word, chunk := word >>> 1 ||| 0x80000000 })
    pure (decide (word &&& 1 = 1))
  else
    does (modify fun u => { u with chunk := chunk >>> 1 })
    pure (decide (chunk &&& 1 = 1))

/-- The number that `count` bits spell below the ones read before. -/
def fieldOn : Nat → Nat → Watching Nat
  | 0, read => pure read
  | count + 1, read => do
    let b ← bit
    fieldOn count (2 * read + b.toNat)

/-- The number that the next `count` bits spell. -/
def field (count : Nat) : Watching Nat := fieldOn count 0

/-- Where the next byte goes. -/
def place : Watching Nat := do
  note .pause
  does Unpacker.place

/-- Writes the next byte. -/
def write (pos : Nat) (b : UInt8) : Watching Unit := do
  note (.put pos)
  does (Unpacker.write pos b)

/-- Writes bytes that the block carries. -/
def literals : Nat → Watching Unit
  | 0 => pure ()
  | count + 1 => do
    let b ← field 8
    let pos ← place
    write pos b.toUInt8
    literals count

/-- The byte `distance` places above a position. -/
def earlier (pos distance : Nat) : Watching UInt8 := do
  let u ← does get
  if distance = 0 ∨ u.buffer.size ≤ pos + distance then
    throw (.badReference (pos - u.start) distance)
  else byte (pos + distance)

/-- Writes bytes that were written before. -/
def copy (distance : Nat) : Nat → Watching Unit
  | 0 => pure ()
  | count + 1 => do
    let pos ← place
    let b ← earlier pos distance
    write pos b
    copy distance count

/-- The code that a token begins with: two bits, or three if the first one is set. -/
def code : Watching Nat := do
  if ← bit then
    let low ← field 2
    pure (0b100 + low)
  else field 1

/-- What a token with a given code does. -/
def perform : Nat → Watching Unit
  | 0b00 => do
    let count ← field 3
    literals (count + 1)
  | 0b111 => do
    let count ← field 8
    literals (count + 9)
  | 0b01 => do
    let distance ← field 8
    copy distance 2
  | 0b100 => do
    let distance ← field 9
    copy distance 3
  | 0b101 => do
    let distance ← field 10
    copy distance 4
  | 0b110 => do
    let count ← field 8
    let distance ← field 12
    copy distance (count + 1)
  | other => note (.stray other)

/-- Reads one token and carries it out. -/
def token : Watching Unit := do
  let read ← code
  perform read

/-- Carries out tokens until nothing is left to write, but no more than the given number. -/
def tokens : Nat → Watching Unit
  | 0 => note .pause
  | bound + 1 => do
    note .pause
    if (← does get).remaining = 0 then pure ()
    else
      token
      tokens bound

/-- What the words of the trailer announce. -/
def settle (length check chunk : UInt32) : Watching Unit := do
  let u ← does get
  if length = 0 then throw .alreadyUnpacked
  else if length.toNat ≠ u.target - u.start then
    throw (.lengthMismatch length (u.target - u.start))
  else does (set { u with remaining := length.toNat, check := check ^^^ chunk, chunk := chunk })

/-- Reads the trailer. -/
def trailer : Watching Unit := do
  let length ← fetch
  let check ← fetch
  let chunk ← fetch
  settle length check chunk

/-- A whole expansion, of no more than a given number of tokens. -/
def run (bound : Nat) : Watching Unit := do
  trailer
  tokens bound
  does Unpacker.checkSum

end Watched

/-! ### Forgetting what was seen -/

/-- A result without the sights. -/
def forget {α : Type} :
    EStateM.Result UnpackError Watched α → EStateM.Result UnpackError Unpacker α
  | .ok a w => .ok a w.unpacker
  | .error e w => .error e w.unpacker

/-- The sights that a result comes with. -/
def sightsOf {α : Type} : EStateM.Result UnpackError Watched α → List Sight
  | .ok _ w => w.sights
  | .error _ w => w.sights

/-- **A computation that is another one, but for the watch.** -/
def Erases {α : Type} (c : Watching α) (d : Unpacking α) : Prop :=
  ∀ w, forget (c w) = d w.unpacker

namespace Erases

variable {α β : Type} {c : Watching α} {d : Unpacking α}

theorem pure (a : α) : Erases (Pure.pure a) (Pure.pure a) := fun _ => rfl

theorem throw (e : UnpackError) :
    Erases (MonadExcept.throw e : Watching α) (MonadExcept.throw e) := fun _ => rfl

theorem does (d : Unpacking α) : Erases (Watched.does d) d := by
  intro w
  unfold Watched.does
  cases d w.unpacker with
  | ok a u => rfl
  | error e u => rfl

/-- **Computations in a row are watched in a row.** -/
theorem bind {f : α → Watching β} {g : α → Unpacking β} (hc : Erases c d)
    (hf : ∀ a, Erases (f a) (g a)) : Erases (c >>= f) (d >>= g) := by
  intro w
  have first := hc w
  cases result : c w with
  | ok a v =>
    rw [result] at first
    rw [bind_eq_of_ok result, bind_eq_of_ok first.symm]
    exact hf a v
  | error e v =>
    rw [result] at first
    rw [bind_eq_of_error result, bind_eq_of_error first.symm]
    rfl

/-- Entering an act is no part of the expansion. -/
theorem note_bind (act : Act) (hc : Erases c d) :
    Erases (Watched.note act >>= fun _ => c) d :=
  fun w => hc (w.noted act)

theorem get_bind {f : Unpacker → Watching β} {g : Unpacker → Unpacking β}
    (hf : ∀ u, Erases (f u) (g u)) : Erases (Watched.does get >>= f) (get >>= g) :=
  (does get).bind hf

theorem ite {p : Prop} [Decidable p] {c' : Watching α} {d' : Unpacking α} (h : Erases c d)
    (h' : Erases c' d') : Erases (if p then c else c') (if p then d else d') := by
  split
  · exact h
  · exact h'

end Erases

namespace Watched

/-! ### The operations without the watch -/

/-- The sights of a number that is read from the bytes at `pos`. -/
def looks (u : Unpacker) (pos width : Nat) : List Sight :=
  (List.range width).map fun k => ⟨u, .look (pos + k)⟩

@[simp] theorem puts_looks (u : Unpacker) (pos width : Nat) : puts (looks u pos width) = [] := by
  simp [puts, looks]

theorem looks_succ (u : Unpacker) (pos width : Nat) :
    looks u pos (width + 1) = looks u pos width ++ [⟨u, .look (pos + width)⟩] := by
  simp only [looks, List.range_succ, List.map_append, List.map_singleton]

/-- Reading a number byte by byte. -/
theorem word_eq (pos width : Nat) (w : Watched) :
    word pos width w = .ok (w.unpacker.buffer.wordAt pos width)
      { w with sights := w.sights ++ looks w.unpacker pos width } := by
  induction width with
  | zero => simp [word, looks, Bytes.wordAt_zero, pure, EStateM.pure]
  | succ width ih =>
    rw [word, bind_eq_of_ok ih, Bytes.wordAt_succ, looks_succ, ← List.append_assoc]
    rfl

/-- **A word that is there is read at once**, and its four bytes are seen. -/
theorem fetch_eq {w : Watched} (enough : 4 ≤ w.unpacker.source) :
    fetch w = .ok (w.unpacker.buffer.wordAt (w.unpacker.source - 4) 4).toUInt32
      ⟨{ w.unpacker with source := w.unpacker.source - 4 },
        w.sights ++ looks w.unpacker (w.unpacker.source - 4) 4⟩ := by
  change (if 4 ≤ w.unpacker.source then word (w.unpacker.source - 4) 4 >>= _
    else throw .sourceExhausted : Watching UInt32) w = _
  rw [if_pos enough, bind_eq_of_ok (word_eq _ _ _)]
  rfl

theorem fetch_of_lt {w : Watched} (short : ¬4 ≤ w.unpacker.source) :
    fetch w = .error .sourceExhausted w := by
  change (if 4 ≤ w.unpacker.source then word (w.unpacker.source - 4) 4 >>= _
    else throw .sourceExhausted : Watching UInt32) w = _
  rw [if_neg short]
  rfl

/-- The bit that a new word begins with. -/
def firstOf (word : UInt32) : Watching Bool := do
  does (modify fun u => { u with check := u.check ^^^ word, chunk := word >>> 1 ||| 0x80000000 })
  pure (decide (word &&& 1 = 1))

theorem bit_of_spent {w : Watched} (spent : w.unpacker.chunk >>> 1 = 0) :
    bit w = (fetch >>= firstOf) (w.noted .pause) := by
  change (if w.unpacker.chunk >>> 1 = 0 then fetch >>= firstOf else _ : Watching Bool) _ = _
  rw [if_pos spent]

theorem bit_of_not_spent {w : Watched} (more : ¬w.unpacker.chunk >>> 1 = 0) :
    bit w = .ok (decide (w.unpacker.chunk &&& 1 = 1))
      { w.noted .pause with unpacker := { w.unpacker with chunk := w.unpacker.chunk >>> 1 } } := by
  change (if w.unpacker.chunk >>> 1 = 0 then fetch >>= firstOf else _ : Watching Bool) _ = _
  rw [if_neg more]
  rfl

theorem does_of_ok {α : Type} {c : Unpacking α} {w : Watched} {a : α} {u : Unpacker}
    (h : c w.unpacker = .ok a u) : does c w = .ok a { w with unpacker := u } := by
  rw [does, h]

theorem does_of_error {α : Type} {c : Unpacking α} {w : Watched} {e : UnpackError} {u : Unpacker}
    (h : c w.unpacker = .error e u) : does c w = .error e { w with unpacker := u } := by
  rw [does, h]

/-- There is a place for the next byte. -/
def Room (u : Unpacker) : Prop :=
  u.remaining ≠ 0 ∧ 1 ≤ u.target ∧ u.source ≤ u.target - 1 ∧ u.start ≤ u.target - 1

theorem place_of_room {w : Watched} (room : Room w.unpacker) :
    place w = .ok (w.unpacker.target - 1) (w.noted .pause) :=
  does_of_ok (w := w.noted .pause) (if_pos room)

theorem place_of_not_room {w : Watched} (room : ¬Room w.unpacker) :
    place w = .error .outputOverrun (w.noted .pause) :=
  does_of_error (w := w.noted .pause) (if_neg room)

theorem earlier_of_bad {w : Watched} {pos distance : Nat}
    (bad : distance = 0 ∨ w.unpacker.buffer.size ≤ pos + distance) :
    earlier pos distance w = .error (.badReference (pos - w.unpacker.start) distance) w := by
  change (if distance = 0 ∨ w.unpacker.buffer.size ≤ pos + distance then throw _ else _ :
    Watching UInt8) w = _
  rw [if_pos bad]
  rfl

theorem earlier_of_good {w : Watched} {pos distance : Nat}
    (good : ¬(distance = 0 ∨ w.unpacker.buffer.size ≤ pos + distance)) :
    earlier pos distance w = .ok (w.unpacker.buffer.byteAt (pos + distance))
      (w.noted (.look (pos + distance))) := by
  change (if distance = 0 ∨ w.unpacker.buffer.size ≤ pos + distance then _ else byte _ :
    Watching UInt8) w = _
  rw [if_neg good]
  rfl

theorem tokens_succ (bound : Nat) (w : Watched) :
    tokens (bound + 1) w = if w.unpacker.remaining = 0 then .ok () (w.noted .pause)
      else (token >>= fun _ => tokens bound) (w.noted .pause) := by
  change (if w.unpacker.remaining = 0 then pure () else token >>= fun _ => tokens bound :
    Watching Unit) (w.noted .pause) = _
  split
  · rfl
  · rfl

theorem erases_fetch : Erases fetch Unpacker.fetch := by
  intro w
  by_cases enough : 4 ≤ w.unpacker.source
  · rw [fetch_eq enough, Unpacker.fetch, if_pos enough]
    rfl
  · rw [fetch_of_lt enough, Unpacker.fetch, if_neg enough]
    rfl

theorem erases_bit : Erases bit Unpacker.bit := by
  intro w
  by_cases spent : w.unpacker.chunk >>> 1 = 0
  · have next := erases_fetch (w.noted .pause)
    change _ = Unpacker.fetch w.unpacker at next
    rw [bit_of_spent spent, Unpacker.bit, if_pos spent, ← next]
    cases fetched : fetch (w.noted .pause) with
    | ok word w' =>
      rw [bind_eq_of_ok fetched]
      rfl
    | error e w' =>
      rw [bind_eq_of_error fetched]
      rfl
  · rw [bit_of_not_spent spent, Unpacker.bit, if_neg spent]
    rfl

theorem erases_fieldOn (count read : Nat) :
    Erases (fieldOn count read) (Unpacker.fieldOn count read) := by
  induction count generalizing read with
  | zero => exact .pure read
  | succ count ih => exact erases_bit.bind fun b => ih _

theorem erases_field (count : Nat) : Erases (field count) (Unpacker.field count) :=
  erases_fieldOn count 0

theorem erases_place : Erases place Unpacker.place := .note_bind _ (.does _)

theorem erases_write (pos : Nat) (b : UInt8) : Erases (write pos b) (Unpacker.write pos b) :=
  .note_bind _ (.does _)

theorem erases_literals (count : Nat) : Erases (literals count) (Unpacker.literals count) := by
  induction count with
  | zero => exact .pure ()
  | succ count ih =>
    exact (erases_field 8).bind fun b => erases_place.bind fun pos =>
      (erases_write pos b.toUInt8).bind fun _ => ih

theorem erases_earlier (pos distance : Nat) :
    Erases (earlier pos distance) (Unpacker.earlier pos distance) := by
  intro w
  by_cases bad : distance = 0 ∨ w.unpacker.buffer.size ≤ pos + distance
  · rw [earlier_of_bad bad, Unpacker.earlier, if_pos bad]
    rfl
  · rw [earlier_of_good bad, Unpacker.earlier, if_neg bad]
    rfl

theorem erases_copy (distance count : Nat) :
    Erases (copy distance count) (Unpacker.copy distance count) := by
  induction count with
  | zero => exact .pure ()
  | succ count ih =>
    exact erases_place.bind fun pos => (erases_earlier pos distance).bind fun b =>
      (erases_write pos b).bind fun _ => ih

/-- **Every code begins a token.** The bits of a code, read as a number, give one of the six. -/
theorem token_eq : token = (do
    if ← bit then
      if ← bit then
        if ← bit then perform 0b111 else perform 0b110
      else
        if ← bit then perform 0b101 else perform 0b100
    else
      if ← bit then perform 0b01 else perform 0b00) := by
  unfold token code field
  simp only [fieldOn, bind_assoc, pure_bind]
  refine bind_congr fun long => ?_
  rcases long with _ | _
  · -- one bit more, which is the code
    simp only [Bool.false_eq_true, if_false, bind_assoc, pure_bind]
    refine bind_congr fun low => ?_
    rcases low with _ | _ <;> rfl
  · -- two bits more, below the first
    simp only [if_true, bind_assoc, pure_bind]
    refine bind_congr fun high => ?_
    rcases high with _ | _
    · simp only [Bool.false_eq_true, if_false]
      refine bind_congr fun low => ?_
      rcases low with _ | _ <;> rfl
    · simp only [if_true]
      refine bind_congr fun low => ?_
      rcases low with _ | _ <;> rfl

theorem erases_token : Erases token Unpacker.token := by
  have short : Erases (perform 0b00) _ :=
    (erases_field 3).bind fun count => erases_literals (count + 1)
  have long : Erases (perform 0b111) _ :=
    (erases_field 8).bind fun count => erases_literals (count + 9)
  have near (width count : Nat) :
      Erases (field width >>= fun distance => copy distance count) _ :=
    (erases_field width).bind fun distance => erases_copy distance count
  have far : Erases (perform 0b110) _ :=
    (erases_field 8).bind fun count => (erases_field 12).bind fun distance =>
      erases_copy distance (count + 1)
  rw [token_eq]
  exact erases_bit.bind fun _ => .ite
    (erases_bit.bind fun _ => .ite
      (erases_bit.bind fun _ => .ite long far)
      (erases_bit.bind fun _ => .ite (near 10 4) (near 9 3)))
    (erases_bit.bind fun _ => .ite (near 8 2) short)

theorem erases_tokens (bound : Nat) : Erases (tokens bound) (Unpacker.tokens bound) := by
  induction bound with
  | zero => exact .note_bind _ (.pure ())
  | succ bound ih =>
    exact .note_bind _ (.get_bind fun u => .ite (.pure ()) (erases_token.bind fun _ => ih))

theorem erases_trailer : Erases trailer Unpacker.trailer :=
  erases_fetch.bind fun _ => erases_fetch.bind fun _ => erases_fetch.bind fun _ =>
    .get_bind fun _ => .ite (.throw _) (.ite (.throw _) (.does _))

/-- **A watched expansion is an expansion**, of no more tokens than it is given. -/
theorem erases_run (bound : Nat) :
    Erases (run bound) (Unpacker.trailer >>= fun _ => Unpacker.tokens bound >>= fun _ =>
      Unpacker.checkSum) :=
  erases_trailer.bind fun _ => (erases_tokens bound).bind fun _ => .does _

end Watched

/-! ### In place -/

/-- An expansion in place of no more than a given number of tokens, with what was seen of it. -/
def watchedInPlace (bound : Nat) (buffer : Bytes) (packed unpacked : Nat) :
    (Bytes × Except UnpackError Unit) × List Sight :=
  if packed < trailerSize then ((buffer, .error (.truncated packed)), [])
  else if buffer.size < unpacked then ((buffer, .error (.bufferTooSmall buffer.size unpacked)), [])
  else if unpacked < packed then ((buffer, .error (.oversized packed unpacked)), [])
  else
    let result := Watched.run bound ⟨loaded buffer packed unpacked, []⟩
    (outcome buffer unpacked (forget result), sightsOf result)

end Cinematic.Packing
