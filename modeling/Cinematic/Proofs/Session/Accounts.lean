import Cinematic.Proofs.Host.Tally
import Cinematic.Proofs.Machine.Pacing
import Cinematic.Proofs.Session.Media
import Mathlib.Algebra.Group.Nat.Defs
import Mathlib.Algebra.GroupWithZero.Nat
import Mathlib.Data.List.Chain

/-!
# The accounts of a session

A session keeps accounts of what it did: the passes, the time, the pages shown and the calls by
name. While its frames succeed, **these accounts are exact** (`Cinematic.Session.Plays.accounts`).
Every frame is one pass, and the clock moves from frame to frame by the slices that the pass has
asked for, or by one tick if it has asked for none, whether or not a part is entered in between.

The clock is put forward to the deadline of the next pass, and deadlines chain from deadline to
deadline. That the two never part is the invariant here (`Cinematic.Session.Accounted`): between two
frames the clock has not passed the deadline, so that the next pass runs just at its deadline, and
the one after it is due as much later as its frame takes.
-/

namespace Cinematic

/-! ### Stages -/

/-- **A pass takes no time on a stage**, and what its recorder counts stays right. -/
theorem Stage.maintains_accounts (tick : UInt32) :
    host.Maintains fun s => s.now = tick ∧ s.recorder.Tallied where
  load := by
    rintro s ⟨now, tallied⟩ id
    change (s.load id).2.now = tick ∧ (s.load id).2.recorder.Tallied
    unfold load
    split <;> exact ⟨now, tallied⟩
  call := by
    rintro s ⟨now, tallied⟩ c -
    exact ⟨now, tallied.record c⟩
  note := by
    rintro s ⟨now, tallied⟩ e
    exact ⟨now, tallied⟩
  observe := by
    rintro s ⟨now, tallied⟩ e
    exact ⟨now, tallied⟩

namespace Session

variable {α β : Type} {first s s' : Session} {n total : Nat}

/-! ### One frame -/

/-- The clock during the next frame. -/
def clock (s : Session) : UInt32 := (s.stage.waitUntil s.machine.nextDeadline).now

/-- How many slices the next frame stays on screen, as its pass leaves them. -/
def slices (s : Session) : UInt16 :=
  (Machine.run Stage.host s.machine .neutral
    (s.stage.waitUntil s.machine.nextDeadline)).machine.registers.get Register.pauseSlices

/-- **How long the next frame takes** in milliseconds: its slices, but at least one tick. -/
def span (s : Session) : Nat := max 1 (20 * s.slices.toNat)

/-- **The accounts are in order** after a number of frames that took some time. -/
structure Accounted (n total : Nat) (s : Session) : Prop where
  passes : s.passes = n
  begun : s.machine.passes = n
  deadline : s.machine.nextDeadline.toNat = total
  now : s.stage.now ≤ s.machine.nextDeadline
  tallied : s.stage.recorder.Tallied

theorem Accounted.withTracing (accounted : Accounted n total s) (tracing : Tracing) :
    Accounted n total (s.withTracing tracing) :=
  ⟨accounted.passes, accounted.begun, accounted.deadline, accounted.now, accounted.tallied⟩

/-- **The next pass runs just at its deadline.** -/
theorem Accounted.clock_eq (accounted : Accounted n total s) :
    s.clock = s.machine.nextDeadline := if_pos accounted.now

theorem Accounted.toNat_clock (accounted : Accounted n total s) : s.clock.toNat = total := by
  rw [accounted.clock_eq, accounted.deadline]

/-- **What the pass of the next frame does to the accounts**: it takes no time itself, and if it
succeeds, it is one pass, and the next one is due when its frame has taken its time. -/
theorem Accounted.run (accounted : Accounted n total s) (fits : total + s.span < 2 ^ 32) :
    let ran := Machine.run Stage.host s.machine .neutral (s.stage.waitUntil s.machine.nextDeadline)
    (ran.host.now = s.clock ∧ ran.host.recorder.Tallied) ∧
      ∀ b, ran.result = .ok b → b = true ∧ ran.machine.passes = n + 1 ∧
        ran.machine.nextDeadline.toNat = total + s.span := by
  intro ran
  have due : s.machine.nextDeadline ≤ s.clock := by
    rw [accounted.clock_eq]
    exact UInt32.le_refl _
  have held : ran.host.now = s.clock ∧ ran.host.recorder.Tallied :=
    Machine.run_maintains (Stage.maintains_accounts s.clock) s.machine .neutral
      ⟨rfl, accounted.tallied⟩
  refine ⟨held, fun b done => ?_⟩
  obtain ⟨rfl, passes, pacer⟩ := Machine.run_of_due rfl due done
  refine ⟨rfl, passes.trans (by rw [accounted.begun]), ?_⟩
  have ticks : (Stage.host.ticks ran.host).toNat = total := by
    change ran.host.now.toNat = total
    rw [held.1, accounted.toNat_clock]
  -- the pass ran just when it was due, so that both ways to set the deadline count from there
  have chained : max (s.machine.nextDeadline.toNat + 20 * s.slices.toNat)
      ((Stage.host.ticks ran.host).toNat + 1) = total + s.span := by
    have length : s.span = max 1 (20 * s.slices.toNat) := rfl
    rw [ticks, accounted.deadline]
    omega
  change ran.machine.pacer.deadline.toNat = _
  rw [pacer, ← chained]
  rw [← chained] at fits
  exact Pacer.toNat_deadline_schedule _ _ _ fits

/-- **A pass that succeeds is accounted for.** -/
theorem Accounted.pass_ends (accounted : Accounted n total s) (fits : total + s.span < 2 ^ 32) :
    Ends pass s (fun _ s' => Accounted (n + 1) (total + s.span) s' ∧ s'.stage.now = s.clock)
      fun _ _ => True := by
  have ran := accounted.run fits
  have clock := accounted.toNat_clock
  have completed := accounted.passes
  generalize s.span = length, s.clock = tick at ran clock ⊢
  obtain ⟨machine, stage, passes, parts⟩ := s
  rw [Ends, pass]
  generalize Machine.run Stage.host machine .neutral (stage.waitUntil machine.nextDeadline)
    = ended at ran ⊢
  obtain ⟨machine', controls, stage', result⟩ := ended
  cases result with
  | error e => trivial
  | ok b =>
    obtain ⟨⟨now, tallied⟩, done⟩ := ran
    obtain ⟨rfl, begun, deadline⟩ := done b rfl
    refine ⟨⟨congrArg (· + 1) completed, begun, deadline, ?_, tallied⟩, now⟩
    rw [UInt32.le_iff_toNat_le, deadline]
    dsimp only at now ⊢
    rw [now, clock]
    omega

/-! ### Entering a part -/

/-- What stays as long as no pass is run. -/
structure Idles (s s' : Session) : Prop where
  passes : s'.passes = s.passes
  begun : s'.machine.passes = s.machine.passes
  pacer : s'.machine.pacer = s.machine.pacer
  now : s'.stage.now = s.stage.now
  recorder : s'.stage.recorder = s.stage.recorder

theorem Idles.trans {s s' s'' : Session} (one : Idles s s') (other : Idles s' s'') :
    Idles s s'' where
  passes := other.passes.trans one.passes
  begun := other.begun.trans one.begun
  pacer := other.pacer.trans one.pacer
  now := other.now.trans one.now
  recorder := other.recorder.trans one.recorder

theorem Idles.accounted (idles : Idles s s') (accounted : Accounted n total s) :
    Accounted n total s' := by
  have deadline : s'.machine.nextDeadline = s.machine.nextDeadline :=
    congrArg Pacer.deadline idles.pacer
  refine ⟨idles.passes.trans accounted.passes, idles.begun.trans accounted.begun, ?_, ?_, ?_⟩
  · rw [deadline, accounted.deadline]
  · rw [deadline, idles.now]
    exact accounted.now
  · rw [idles.recorder]
    exact accounted.tallied

/-- **The computation runs no pass**, however it ends. -/
def Passless (x : Playing α) : Prop := ∀ s, Ends x s (fun _ s' => Idles s s') fun _ s' => Idles s s'

theorem Passless.pure (a : α) : Passless (Pure.pure a : Playing α) :=
  fun _ => ⟨rfl, rfl, rfl, rfl, rfl⟩

theorem Passless.get : Passless (get : Playing Session) := fun _ => ⟨rfl, rfl, rfl, rfl, rfl⟩

theorem Passless.bind {x : Playing α} {f : α → Playing β} (one : Passless x)
    (other : ∀ a, Passless (f a)) : Passless (x >>= f) := fun s =>
  (one s).bind fun a s₁ idles =>
    (other a s₁).mono (fun _ _ => idles.trans) fun _ _ => idles.trans

theorem passless_loading (x : Loading α) : Passless (loading x) := by
  intro s
  rw [Ends, loading]
  cases x s.stage.library with
  | ok a library => exact ⟨rfl, rfl, rfl, rfl, rfl⟩
  | error e library => exact ⟨rfl, rfl, rfl, rfl, rfl⟩

theorem passless_enterPart (id : UInt16) : Passless (enterPart id) :=
  .bind (passless_loading _) fun _ => .bind (passless_loading _) fun _ _ =>
    ⟨rfl, rfl, rfl, rfl, rfl⟩

theorem passless_switchPart : Passless switchPart := by
  refine .bind (passless_loading _) fun requested => ?_
  cases requested with
  | none => exact .pure _
  | some id => exact .bind .get fun _ => .bind (passless_loading _) fun _ => passless_enterPart id

/-! ### Frames -/

/-- **A frame that succeeds is accounted for**, also if a part is entered in it. -/
theorem Accounted.frame_ends (accounted : Accounted n total s) (fits : total + s.span < 2 ^ 32) :
    Ends frame s (fun _ s' => Accounted (n + 1) (total + s.span) s' ∧ s'.stage.now = s.clock)
      fun _ _ => True := by
  refine (accounted.pass_ends fits).bind fun _ s₁ passed => ?_
  refine (passless_switchPart s₁).mono ?_ fun _ _ _ => trivial
  rintro _ s' idles
  exact ⟨idles.accounted passed.1, idles.now.trans passed.2⟩

theorem accounted_start {library : Library} {config : MachineConfig} {seed part : UInt16}
    (started : start library config seed part = .ok () first) : Accounted 0 0 first := by
  have idles := (passless_enterPart part (fresh library config seed)).of_ok started
  exact idles.accounted ⟨rfl, rfl, rfl, UInt32.le_refl _, Recorder.tallied_empty⟩

/-- **Frames that all succeed**, one after the other, with the session at the beginning of each.
Each may have its steps written down in its own way. -/
inductive Plays (first : Session) : List Session → Session → Prop
  | nil : Plays first [] first
  | succeeds {begun : List Session} {s s' : Session} (before : Plays first begun s)
    (tracing : Tracing) (done : frame (s.withTracing tracing) = .ok () s') :
    Plays first (begun ++ [s.withTracing tracing]) s'

variable {begun : List Session}

/-- The frames as frames of which any might have failed. -/
theorem Plays.frames (plays : Plays first begun s) :
    Frames first (begun.map fun s₁ => (true, s₁.partsAsked)) s := by
  induction plays with
  | nil => exact .nil
  | succeeds before tracing done ih =>
    rw [List.map_append]
    exact ih.succeeds tracing done

theorem sum_map_concat (figure : Session → Nat) (begun : List Session) (s : Session) :
    ((begun ++ [s]).map figure).sum = (begun.map figure).sum + figure s := by
  rw [List.map_append, List.sum_append, List.map_singleton, List.sum_singleton]

/-- **The frames are accounted for.** -/
theorem Plays.accounted (plays : Plays first begun s) (started : Accounted 0 0 first)
    (fits : (begun.map span).sum < 2 ^ 32) :
    Accounted begun.length (begun.map span).sum s := by
  induction plays with
  | nil => exact started
  | @succeeds begun s s' before tracing done ih =>
    rw [sum_map_concat] at fits ⊢
    have here := (ih (by omega)).withTracing tracing
    rw [List.length_append, List.length_singleton]
    exact ((here.frame_ends fits).of_ok done).1

/-- **The clock follows the frames**, from the first one to the last. -/
theorem Plays.timeline (plays : Plays first begun s) (started : Accounted 0 0 first)
    (fits : (begun.map span).sum < 2 ^ 32) :
    (∀ s₁ ∈ begun.head?, s₁.clock = 0) ∧
      begun.IsChain (fun s₁ s₂ => s₂.clock.toNat = s₁.clock.toNat + s₁.span) ∧
      ∀ s₁ ∈ begun.getLast?, s.stage.now = s₁.clock ∧
        s.machine.nextDeadline.toNat = s₁.clock.toNat + s₁.span := by
  induction plays with
  | nil => exact ⟨by simp, .nil, by simp⟩
  | @succeeds begun s s' before tracing done ih =>
    rw [sum_map_concat] at fits
    obtain ⟨head, chain, last⟩ := ih (by omega)
    have here := (before.accounted started (by omega)).withTracing tracing
    obtain ⟨after, now⟩ := (here.frame_ends fits).of_ok done
    refine ⟨?_, ?_, ?_⟩
    · rcases begun with _ | ⟨s₁, rest⟩
      · rintro _ ⟨rfl⟩
        exact UInt32.toNat_inj.1 here.toNat_clock
      · exact head
    · refine chain.append (.singleton _) ?_
      -- the frame begins at the deadline that the last one has left
      rintro s₁ member _ ⟨rfl⟩
      rw [here.clock_eq]
      exact (last s₁ member).2
    · rw [List.getLast?_concat]
      rintro _ ⟨rfl⟩
      refine ⟨now, ?_⟩
      rw [after.deadline, here.toNat_clock]

/-- **The record has the calls of all frames** and no others. -/
theorem Plays.size_calls {dir : String} {list : MemoryList} (plays : Plays first begun s)
    (sound : Library.Sound dir list first.stage.library)
    (empty : first.stage.recorder = .empty) :
    s.stage.recorder.calls.size = (begun.map fun s₁ => s₁.stamps.length).sum := by
  induction plays with
  | nil =>
    rw [empty]
    rfl
  | @succeeds begun s s' before tracing done ih =>
    have sound' : Library.Sound dir list (s.withTracing tracing).stage.library :=
      before.frames.sound sound
    have stamped := (stamped_frame sound').of_ok done
    have calls := congrArg List.length stamped.calls
    rw [List.length_append, Array.length_toList, Array.length_toList, List.length_map] at calls
    rw [sum_map_concat, ← ih]
    exact calls

/-- **The accounts of a session are exact.** In a session that has been started, after any frames
that have all succeeded, as long as the time that they take together stays below the range of the
clock: there have been as many passes as frames. The clock stands at zero in the first frame, and it
is later in every other one by what the frame before it took: the slices of 20 ms that its pass has
left in the register of the pause, also if a part was entered afterwards, but at least a
millisecond. The next pass is due when the last frame has taken its time. The pages shown are as
many as the summary says of the call that shows them, and what it says of all calls adds up to the
number of calls that the passes have made. -/
theorem Plays.accounts {library : Library} {config : MachineConfig} {seed part : UInt16}
    (started : start library config seed part = .ok () first) (plays : Plays first begun s)
    (fits : (begun.map span).sum < 2 ^ 32) :
    (s.summary.passes = begun.length ∧ s.machine.passes = begun.length) ∧
      (∀ s₁ ∈ begun.head?, s₁.clock = 0) ∧
      begun.IsChain (fun s₁ s₂ => s₂.clock.toNat = s₁.clock.toNat + s₁.span) ∧
      (∀ s₁ ∈ begun.getLast?, s.summary.elapsed = s₁.clock ∧
        s.machine.nextDeadline.toNat = s₁.clock.toNat + s₁.span) ∧
      s.summary.frames = (s.summary.calls.lookup "blit_page").getD 0 ∧
      (s.summary.calls.map Prod.snd).sum = (begun.map fun s₁ => s₁.stamps.length).sum := by
  obtain ⟨sound, empty⟩ := sound_start started
  have accounted := plays.accounted (accounted_start started) fits
  obtain ⟨head, chain, last⟩ := plays.timeline (accounted_start started) fits
  refine ⟨⟨accounted.passes, accounted.begun⟩, head, chain, last, ?_, ?_⟩
  · exact accounted.tallied.trans (s.stage.recorder.lookup_counts "blit_page").symm
  · exact s.stage.recorder.sum_counts.trans (plays.size_calls sound empty)

/-- The code-wheel screen asks for a frame of three slices and for the introduction. There the
register of the pause begins with zero, so that the second frame, which shows two pages, takes a
millisecond. -/
theorem Plays.accounts_across_parts :
    let bank : Bytes := #[0x00, 0xff, 0, 3, 0x19, 0x3e, 0x81, 0x06,
      0x10, 0, 0x10, 1, 0x02, 1, 1, 0x06]
    let entry (id : Nat) : MemoryEntry :=
      ⟨id.toUInt16, .notNeeded, .bytecode, 0, 1, if id < 0x17 then 0 else 8, 8, 8⟩
    let library : Library := .ofStore (.ofList "game" ⟨(Array.range 0x1a).map entry⟩)
      ⟨[(["game"], .directory), (["BANK01", "game"], .file bank)]⟩
    ∃ first s₁ s₂ : Session, start library .standard 0 0x3e80 = .ok () first ∧
      Plays first [first.withTracing .off, s₁.withTracing .log] s₂ ∧
      s₂.summary.parts = ["protection", "introduction"] ∧ s₂.summary.passes = 2 ∧
      s₂.summary.elapsed.toNat = 60 ∧ s₂.machine.nextDeadline.toNat = 61 ∧
      s₂.summary.frames = 2 ∧ (s₂.summary.calls.lookup "blit_page").getD 0 = 2 := by
  intro bank entry library
  have runs : Ends (enterPart 0x3e80) (fresh library .standard 0)
      (fun _ first => Ends frame (first.withTracing .off)
        (fun _ s₁ => Ends frame (s₁.withTracing .log)
          (fun _ s₂ => [(first.withTracing .off).span, (s₁.withTracing .log).span,
            s₂.summary.frames] = [60, 1, 2] ∧ s₂.summary.parts = ["protection", "introduction"])
          fun _ _ => False)
        fun _ _ => False)
      fun _ _ => False := by
    decide +kernel
  obtain ⟨_, first, started, runs⟩ := runs.exists_ok
  obtain ⟨_, s₁, done₁, runs⟩ := runs.exists_ok
  obtain ⟨_, s₂, done₂, figures, parts⟩ := runs.exists_ok
  obtain ⟨span₁, span₂, shown⟩ : (first.withTracing .off).span = 60 ∧
    (s₁.withTracing .log).span = 1 ∧ s₂.summary.frames = 2 := by simpa using figures
  have plays : Plays first [first.withTracing .off, s₁.withTracing .log] s₂ :=
    (Plays.nil.succeeds .off done₁).succeeds .log done₂
  obtain ⟨⟨passes, -⟩, head, chain, last, frames, -⟩ :=
    Plays.accounts started plays (by simp [span₁, span₂])
  have zero : (first.withTracing .off).clock = 0 := head _ rfl
  have second := List.isChain_pair.1 chain
  obtain ⟨elapsed, deadline⟩ := last (s₁.withTracing .log) rfl
  rw [zero, span₁] at second
  refine ⟨first, s₁, s₂, started, plays, parts, passes, ?_, ?_, shown, frames.symm.trans shown⟩
  · rw [elapsed, second]
    rfl
  · rw [deadline, second, span₂]
    rfl

end Session

end Cinematic
