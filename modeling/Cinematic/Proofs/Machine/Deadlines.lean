import Cinematic.Proofs.Machine.Pacing
import Mathlib.Data.List.Chain

/-!
# Deadlines over a run

A pacer is asked whether a pass is due, and it is told when a pass has ended. What has to be
arranged is that the answers of one call fit those of the calls before it: **a pass runs when its
deadline has come**, it is never followed by another one on the tick on which it ended, one that
has failed can be tried again at once, and after a call of a game that has been stopped nothing
runs for a tenth of a second (`Cinematic.Machine.Call.calls_paced`).

All of this rests on what a single call can do to the deadline (`Cinematic.Machine.Call.Paced`), and
on one invariant: as long as no pass has run, the deadline does not fall below a bound that it
has reached, unless the game is stopped so early that the delay ends before the bound
(`Cinematic.Machine.Call.Timely.le_start_of_executes`).

The exception is real. A game that is stopped and goes on has its deadline a tenth of a second
later, **whatever the deadline was**, so that a frame that was to stay on screen for long is cut
short (`Cinematic.Pacer.deadline_slides`, `Cinematic.Pacer.deadline_set_back`).

Ticks are read as numbers here, and the clock is far enough from the end of its range that no
deadline wraps around: the longest frame takes 1310700 ms, and the delay 100 more.
-/

namespace Cinematic

namespace Machine

/-! ### Calls -/

/-- **A call of a machine** that is to run a pass if one is due. -/
structure Call (σ : Type) where
  /-- The machine. -/
  machine : Machine
  /-- The player's input. -/
  controls : Controls
  /-- The host. -/
  host : σ

namespace Call

variable {σ : Type} (h : Host σ)

/-- What the call leaves behind. -/
def ran (x : Call σ) : Stepped σ Bool := run h x.machine x.controls x.host

/-- The tick at which the call begins. -/
def start (x : Call σ) : Nat := (h.ticks x.host).toNat

/-- The tick at which the call has ended. -/
def finish (x : Call σ) : Nat := (h.ticks (x.ran h).host).toNat

/-- The deadline before the call. -/
def due (x : Call σ) : Nat := x.machine.nextDeadline.toNat

/-- The deadline after the call. -/
def next (x : Call σ) : Nat := (x.ran h).machine.nextDeadline.toNat

/-- For how many slices the frame stays on screen, as the call has left them. -/
def slices (x : Call σ) : Nat := ((x.ran h).machine.registers.get Register.pauseSlices).toNat

/-- **A pass has begun** in the call. -/
def Executes (x : Call σ) : Prop := (x.ran h).machine.passes = x.machine.passes + 1

/-- The ticks that the call reads from the clock of its host: one when it begins, and another one
when its pass has succeeded. -/
def ticks (x : Call σ) : List Nat :=
  match (x.ran h).result with
  | .ok true => [x.start h, x.finish h]
  | _ => [x.start h]

/-- One call comes after another: the pacer is as the first one has left it, **whatever else has been
done to the machine in between**. -/
def Leads (x y : Call σ) : Prop := y.machine.pacer = (x.ran h).machine.pacer

variable {h} {x y : Call σ} {calls : List (Call σ)} {b : Nat}

theorem due_of_leads (leads : Leads h x y) : y.due = x.next h :=
  congrArg (fun p : Pacer => p.deadline.toNat) leads

theorem start_mem_ticks : x.start h ∈ x.ticks h := by
  unfold ticks
  split
  · exact List.mem_cons_self
  · exact List.mem_cons_self

theorem ticks_of_done (done : (x.ran h).result = .ok true) :
    x.ticks h = [x.start h, x.finish h] := by
  rw [ticks, done]

/-- **What a call can do**, told by ticks. Either the game is stopped, and the deadline is put off; or
the deadline has not come, and nothing happens; or a pass runs, and it fails and leaves the deadline
alone, or succeeds and sets the next one. -/
inductive Paced (h : Host σ) (x : Call σ) : Prop
  | idles (idle : x.controls.idle = true) (unrun : (x.ran h).result = .ok false)
    (rests : ¬ x.Executes h) (delayed : x.next h = x.start h + 100)
  | waits (awake : x.controls.idle = false) (early : x.start h < x.due)
    (unrun : (x.ran h).result = .ok false) (rests : ¬ x.Executes h) (kept : x.next h = x.due)
  | fails (awake : x.controls.idle = false) (late : x.due ≤ x.start h) (e : RuntimeError)
    (failed : (x.ran h).result = .error e) (executes : x.Executes h) (kept : x.next h = x.due)
  | succeeds (awake : x.controls.idle = false) (late : x.due ≤ x.start h)
    (done : (x.ran h).result = .ok true) (executes : x.Executes h)
    (chained : x.next h = max (x.due + 20 * x.slices h) (x.finish h + 1))

/-- **Every call is one of these**, as long as its ticks are in order and not too late. -/
theorem paced (ordered : (x.ticks h).Pairwise (· ≤ ·))
    (below : ∀ t ∈ x.ticks h, t < 2 ^ 32 - 1310800) : Paced h x := by
  have early : x.start h < 2 ^ 32 - 1310800 := below _ start_mem_ticks
  have resting {m : Machine} (same : m.passes = x.machine.passes) :
      ¬ m.passes = x.machine.passes + 1 := by omega
  obtain ⟨idle, answer⟩ | ⟨awake, due, -⟩ | ⟨awake, wait, answer⟩ :=
    x.machine.pacer.isReady_cases (h.ticks x.host) x.controls.idle
  · have left : x.ran h = ⟨{ x.machine with pacer := ⟨x.machine.pacer.previous,
        h.ticks x.host + idleDelay⟩ }, x.controls, x.host, .ok false⟩ := by
      rw [ran, run, answer]
    refine .idles idle (by rw [left]) (by rw [Executes, left]; exact resting rfl) ?_
    rw [next, left]
    exact Pacer.toNat_add_idleDelay (by change x.start h + 100 < _; omega)
  · have late : x.due ≤ x.start h := UInt32.le_iff_toNat_le.1 due
    obtain ⟨executes, ⟨e, failed, pacer⟩ | ⟨done, pacer⟩⟩ := run_cases_of_due awake due
    · have kept := congrArg (fun p : Pacer => p.deadline.toNat) pacer
      exact .fails awake late e failed executes kept
    · refine .succeeds awake late done executes ?_
      have ticks := ticks_of_done (x := x) done
      rw [ticks] at ordered below
      have order : x.start h ≤ x.finish h := by simpa using ordered
      have ending : x.finish h < 2 ^ 32 - 1310800 := below _ (by simp)
      have word : x.slices h < 2 ^ 16 := UInt16.toNat_lt _
      have chained := congrArg (fun p : Pacer => p.deadline.toNat) pacer
      refine chained.trans (Pacer.toNat_deadline_schedule _ _ _ ?_)
      change max (x.due + 20 * x.slices h) (x.finish h + 1) < 2 ^ 32
      omega
  · have left : x.ran h = ⟨x.machine, x.controls, x.host, .ok false⟩ := by
      rw [ran, run, answer]
    have soon : x.start h < x.due := Nat.not_le.1 fun late => wait (UInt32.le_iff_toNat_le.2 late)
    refine .waits awake soon (by rw [left]) (by rw [Executes, left]; exact resting rfl) ?_
    rw [next, left]
    rfl

namespace Paced

variable (paced : Paced h x)
include paced

/-- **A pass runs when it is due**, unless the game is stopped. -/
theorem executes_iff : x.Executes h ↔ x.controls.idle = false ∧ x.due ≤ x.start h := by
  rcases paced with ⟨idle, _, rests, _⟩ | ⟨_, early, _, rests, _⟩ | ⟨awake, late, _, _, executes, _⟩ |
    ⟨awake, late, _, executes, _⟩
  · exact ⟨fun executes => absurd executes rests, fun due => by cases idle.symm.trans due.1⟩
  · exact ⟨fun executes => absurd executes rests, fun due => absurd due.2 (Nat.not_le.2 early)⟩
  · exact ⟨fun _ => ⟨awake, late⟩, fun _ => executes⟩
  · exact ⟨fun _ => ⟨awake, late⟩, fun _ => executes⟩

/-- A call says whether a pass has run, unless the pass has failed. -/
theorem result_eq_false_iff : (x.ran h).result = .ok false ↔ ¬ x.Executes h := by
  rcases paced with ⟨_, unrun, rests, _⟩ | ⟨_, _, unrun, rests, _⟩ | ⟨_, _, _, failed, executes, _⟩ |
    ⟨_, _, done, executes, _⟩
  · exact ⟨fun _ => rests, fun _ => unrun⟩
  · exact ⟨fun _ => rests, fun _ => unrun⟩
  · exact ⟨fun unrun => (by cases unrun.symm.trans failed), fun rests => absurd executes rests⟩
  · exact ⟨fun unrun => (by cases unrun.symm.trans done), fun rests => absurd executes rests⟩

/-- **After a pass that has succeeded** the next deadline chains from the last one, and is later than
the pass. -/
theorem next_of_done (done : (x.ran h).result = .ok true) :
    x.next h = max (x.due + 20 * x.slices h) (x.finish h + 1) := by
  rcases paced with ⟨_, unrun, _, _⟩ | ⟨_, _, unrun, _, _⟩ | ⟨_, _, _, failed, _, _⟩ |
    ⟨_, _, _, _, chained⟩
  · cases done.symm.trans unrun
  · cases done.symm.trans unrun
  · cases done.symm.trans failed
  · exact chained

/-- **After a pass that has failed** the deadline is what it was, and it has come. -/
theorem next_of_error {e : RuntimeError} (failed : (x.ran h).result = .error e) :
    x.next h = x.due ∧ x.due ≤ x.start h := by
  rcases paced with ⟨_, unrun, _, _⟩ | ⟨_, _, unrun, _, _⟩ | ⟨_, late, _, _, _, kept⟩ |
    ⟨_, _, done, _, _⟩
  · cases failed.symm.trans unrun
  · cases failed.symm.trans unrun
  · exact ⟨kept, late⟩
  · cases failed.symm.trans done

theorem next_of_idle (idle : x.controls.idle = true) : x.next h = x.start h + 100 := by
  rcases paced with ⟨_, _, _, delayed⟩ | ⟨awake, _, _, _, _⟩ | ⟨awake, _, _, _, _, _⟩ |
    ⟨awake, _, _, _, _⟩
  · exact delayed
  · cases idle.symm.trans awake
  · cases idle.symm.trans awake
  · cases idle.symm.trans awake

end Paced

/-! ### Calls one after the other -/

/-- **Calls in the order of time**: the clock does not go back, and it is not too late for any
deadline. -/
structure Timely (h : Host σ) (calls : List (Call σ)) : Prop where
  chain : calls.IsChain (Leads h)
  ordered : (calls.flatMap (ticks h)).Pairwise (· ≤ ·)
  below : ∀ t ∈ calls.flatMap (ticks h), t < 2 ^ 32 - 1310800

namespace Timely

theorem tail (timely : Timely h (x :: calls)) : Timely h calls where
  chain := timely.chain.tail
  ordered := (List.pairwise_append.1 (List.flatMap_cons ▸ timely.ordered)).2.1
  below t member := timely.below t (List.flatMap_cons ▸ List.mem_append_right _ member)

theorem paced_head (timely : Timely h (x :: calls)) : Paced h x :=
  paced (List.pairwise_append.1 (List.flatMap_cons ▸ timely.ordered)).1 fun t member =>
    timely.below t (List.flatMap_cons ▸ List.mem_append_left _ member)

theorem paced (timely : Timely h calls) : ∀ x ∈ calls, Paced h x := by
  induction calls with
  | nil => simp
  | cons x rest ih =>
    intro y member
    rcases List.mem_cons.1 member with rfl | member
    · exact timely.paced_head
    · exact ih timely.tail y member

/-- What the first call has read is no later than when another one begins. -/
theorem le_start (timely : Timely h (x :: calls)) {t : Nat} (read : t ∈ x.ticks h)
    (later : y ∈ calls) : t ≤ y.start h :=
  (List.pairwise_append.1 (List.flatMap_cons ▸ timely.ordered)).2.2 t read (y.start h)
    (List.mem_flatMap.2 ⟨y, later, start_mem_ticks⟩)

theorem due_head (timely : Timely h (x :: calls)) : ∀ y ∈ calls.head?, y.due = x.next h := by
  intro y head
  obtain ⟨rest, rfl⟩ := List.head?_eq_some_iff.1 head
  exact due_of_leads (List.isChain_cons_cons.1 timely.chain).1

/-- **No pass runs before a bound that the deadline has reached**, as long as the game is not stopped
so early that the delay ends before the bound. -/
theorem le_start_of_executes (timely : Timely h calls) (reached : ∀ x ∈ calls.head?, b ≤ x.due)
    (stopped : ∀ x ∈ calls, x.controls.idle = true → b ≤ x.start h + 100) :
    ∀ y ∈ calls, y.Executes h → b ≤ y.start h := by
  induction calls with
  | nil => simp
  | cons x rest ih =>
    have here : b ≤ x.due := reached x rfl
    -- the deadline is no lower for the next call unless a pass has run, and then the bound is past
    have onward : b ≤ x.next h ∧ ¬ x.Executes h ∨ b ≤ x.start h := by
      rcases timely.paced_head with ⟨idle, _, rests, delayed⟩ | ⟨_, _, _, rests, kept⟩ |
        ⟨_, late, _, _, _, _⟩ | ⟨_, late, _, _, _⟩
      · exact .inl ⟨delayed ▸ stopped x List.mem_cons_self idle, rests⟩
      · exact .inl ⟨kept ▸ here, rests⟩
      · exact .inr (here.trans late)
      · exact .inr (here.trans late)
    intro y member executes
    rcases List.mem_cons.1 member with rfl | member
    · exact onward.resolve_left fun rests => rests.2 executes
    · rcases onward with ⟨put, -⟩ | past
      · refine ih timely.tail (fun z head => ?_) (fun z among => ?_) y member executes
        · rw [timely.due_head z head]
          exact put
        · exact stopped z (List.mem_cons_of_mem _ among)
      · exact past.trans (timely.le_start start_mem_ticks member)

/-- **A bound that a call sets for all calls after it**: its deadline has reached the bound, and the
delay of a game that is stopped later on ends after it. -/
theorem pairwise_le_start (timely : Timely h calls) {P : Call σ → Prop} {bound : Call σ → Nat}
    (reached : ∀ x ∈ calls, P x → bound x ≤ x.next h)
    (near : ∀ x ∈ calls, P x → ∃ t ∈ x.ticks h, bound x ≤ t + 100) :
    calls.Pairwise fun x y => P x → y.Executes h → bound x ≤ y.start h := by
  induction calls with
  | nil => exact .nil
  | cons x rest ih =>
    refine List.pairwise_cons.2 ⟨fun y member holds executes => ?_, ih timely.tail
      (fun z among => reached z (List.mem_cons_of_mem _ among))
      fun z among => near z (List.mem_cons_of_mem _ among)⟩
    obtain ⟨t, read, close⟩ := near x List.mem_cons_self holds
    refine timely.tail.le_start_of_executes (fun z head => ?_) (fun z among _ => ?_) y member executes
    · rw [timely.due_head z head]
      exact reached x List.mem_cons_self holds
    · have := timely.le_start read among
      omega

/-- **A pass that has failed can be tried again at once.** -/
theorem isChain_retry (timely : Timely h calls) : calls.IsChain fun x y =>
    ∀ e, (x.ran h).result = .error e → y.controls.idle = false → y.Executes h := by
  induction calls with
  | nil => exact .nil
  | cons x rest ih =>
    refine List.isChain_cons.2 ⟨fun y head e failed awake => ?_, ih timely.tail⟩
    have member : y ∈ rest := List.mem_of_mem_head? head
    obtain ⟨kept, late⟩ := timely.paced_head.next_of_error failed
    refine (timely.tail.paced y member).executes_iff.2 ⟨awake, ?_⟩
    calc y.due = x.next h := timely.due_head y head
      _ = x.due := kept
      _ ≤ x.start h := late
      _ ≤ y.start h := timely.le_start start_mem_ticks member

end Timely

/-- **Passes run at their deadlines.** In any calls of a machine, one after the other, whose host has
a clock that does not go back and is not too late: a pass runs if the game is not stopped and the
deadline has come, and in no other case. After one that has succeeded, the next deadline is later
than the last one by the slices that the pass has left in the register of the pause, but it is later
than the tick at which the pass has ended, so that no other pass begins on this tick. A pass that has
failed leaves the deadline alone, so that the next call tries again. After a call of a game that is
stopped no pass runs for 100 ms. -/
theorem calls_paced (timely : Timely h calls) :
    (∀ x ∈ calls, (x.Executes h ↔ x.controls.idle = false ∧ x.due ≤ x.start h) ∧
        ((x.ran h).result = .ok false ↔ ¬ x.Executes h)) ∧
      (∀ x ∈ calls, (x.ran h).result = .ok true →
        x.next h = max (x.due + 20 * x.slices h) (x.finish h + 1) ∧ x.finish h < x.next h) ∧
      calls.Pairwise (fun x y =>
        (x.ran h).result = .ok true → y.Executes h → x.finish h < y.start h) ∧
      (∀ x ∈ calls, ∀ e, (x.ran h).result = .error e → x.next h = x.due) ∧
      calls.IsChain (fun x y =>
        ∀ e, (x.ran h).result = .error e → y.controls.idle = false → y.Executes h) ∧
      calls.Pairwise (fun x y =>
        x.controls.idle = true → y.Executes h → x.start h + 100 ≤ y.start h) := by
  have paced := timely.paced
  have later : ∀ x ∈ calls, (x.ran h).result = .ok true → x.finish h + 1 ≤ x.next h := by
    intro x member done
    rw [(paced x member).next_of_done done]
    exact Nat.le_max_right _ _
  refine ⟨fun x member => ⟨(paced x member).executes_iff, (paced x member).result_eq_false_iff⟩,
    fun x member done => ⟨(paced x member).next_of_done done, later x member done⟩, ?_,
    fun x member e failed => ((paced x member).next_of_error failed).1, timely.isChain_retry, ?_⟩
  · refine timely.pairwise_le_start later fun x _ done => ⟨x.finish h, ?_, by omega⟩
    rw [ticks_of_done done]
    exact List.mem_cons_of_mem _ List.mem_cons_self
  · refine timely.pairwise_le_start (fun x member idle => ?_)
      fun x _ _ => ⟨x.start h, start_mem_ticks, Nat.le_refl _⟩
    rw [(paced x member).next_of_idle idle]

/-- A host whose clock goes on by 13 ms with everything it sees. The first pass takes longer than its
frame; then the game is stopped, is called a tick too early, and runs into a byte that is no
instruction, which it does again when it is called after a register has been written. -/
theorem calls_paced_retried :
    let h : Host UInt32 := ⟨fun _ _ => none, fun s _ => (.ok (), s), fun s _ => s,
      fun s _ => s + 13, fun s _ => s, id⟩
    let m := (powerOn .standard 0).install #[0x00, 0xff, 0, 3, 0x06, 0x1b]
    let one : Call UInt32 := ⟨m, .neutral, 0⟩
    let two : Call UInt32 := ⟨(one.ran h).machine, { Controls.neutral with pause := true }, 70⟩
    let three : Call UInt32 := ⟨(two.ran h).machine, .neutral, 169⟩
    let four : Call UInt32 := ⟨(three.ran h).machine, .neutral, 175⟩
    let five : Call UInt32 := ⟨(four.ran h).machine.setRegister 5 9, .neutral, 220⟩
    Timely h [one, two, three, four, five] ∧ one.next h = 66 ∧ three.due = 170 ∧
      ¬ three.Executes h ∧ four.Executes h ∧ four.next h = 170 ∧ five.Executes h ∧
      one.finish h < five.start h ∧ two.start h + 100 ≤ four.start h := by
  intro h m one two three four five
  have ticks : [one, two, three, four, five].flatMap (Call.ticks h) = [0, 65, 70, 169, 175, 220] := by
    decide +kernel
  have written (m : Machine) : (m.setRegister 5 9).pacer = m.pacer := rfl
  have timely : Timely h [one, two, three, four, five] := by
    refine ⟨?_, by rw [ticks]; decide, by rw [ticks]; decide⟩
    exact .cons_cons rfl (.cons_cons rfl (.cons_cons rfl (.cons_cons (written _) (.singleton _))))
  have figures : (one.ran h).result = .ok true ∧ one.due = 0 ∧ one.slices h = 3 ∧
      one.finish h = 65 ∧ three.due = 170 := by
    decide +kernel
  have failed : (four.ran h).result = .error (.invalidOpcode ⟨0, by decide⟩ 5 0x1b) := by
    decide +kernel
  obtain ⟨done, zero, slices, ended, put⟩ := figures
  obtain ⟨runs, chained, apart, kept, retried, delayed⟩ := calls_paced timely
  have first := (chained one (by simp) done).1
  rw [zero, slices, ended] at first
  have unready : ¬ three.Executes h := fun executes => by
    have due := ((runs three (by simp)).1.1 executes).2
    rw [put] at due
    exact absurd due (by decide)
  have same : four.next h = four.due := kept four (by simp) _ failed
  have again : five.Executes h := by
    have last := retried.tail.tail.tail
    exact (List.isChain_pair.1 last) _ failed rfl
  have put' : four.due = 170 := by decide +kernel
  have fourth : four.Executes h := (runs four (by simp)).1.2 ⟨rfl, by rw [put']; decide⟩
  have before : one.finish h < five.start h :=
    (List.pairwise_cons.1 apart).1 five (by simp) done again
  have rested : two.start h + 100 ≤ four.start h :=
    (List.pairwise_cons.1 (List.pairwise_cons.1 delayed).2).1 four (by simp) rfl fourth
  exact ⟨timely, first, put, unready, fourth, same.trans put', again, before, rested⟩

end Call

end Machine

end Cinematic
