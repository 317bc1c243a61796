import Cinematic.Host.Rehearsal
import Cinematic.Proofs.Machine.Deadlines

/-!
# Deadlines slide forward, except when a game is stopped early

A pacer is asked whether a pass is due, and after a pass that was due it is told to set the next
deadline. Of these requests **only a question in a stopped game can set a deadline back**, and it
does so if it comes more than 100 ms before the deadline: the new one is 100 ms away, whatever the
old one was (`Cinematic.Pacer.deadline_slides`). A frame that was to stay on screen for two seconds
is gone after a tenth of a second if the player stops the game and goes on at once
(`Cinematic.Pacer.deadline_set_back`).

Where no question comes that early, deadlines only slide forward. For the passes of a machine this
means that a frame stays on screen for its slices, counted from its deadline, or at least until
100 ms after the game was first stopped.
-/

namespace Cinematic

namespace Pacer

/-- What is asked of a pacer, with the tick at which it is asked. -/
inductive Request where
  /-- Whether a pass is due, in a game that is stopped or not. -/
  | ask (now : UInt32) (idle : Bool)
  /-- To set the deadline after a pass whose frame stays for some slices. -/
  | schedule (now : UInt32) (slices : UInt16)
deriving Repr, DecidableEq

/-- The tick of a request. -/
def Request.now : Request → UInt32
  | ask now _ => now
  | schedule now _ => now

/-- The pacer after a request. -/
def obey (p : Pacer) : Request → Pacer
  | .ask now idle => (p.isReady now idle).2
  | .schedule now slices => p.schedule now slices

/-- The pacer after some requests. -/
def obeyAll (p : Pacer) (requests : List Request) : Pacer := requests.foldl obey p

theorem obeyAll_append (p : Pacer) (earlier later : List Request) :
    p.obeyAll (earlier ++ later) = (p.obeyAll earlier).obeyAll later := List.foldl_append

/-- **A deadline is set only for a pass that was due**: of the requests, each that sets one comes
right after a question that was answered with yes, or is the first and such a question came
before it. -/
inductive Orderly : (granted : Bool) → Pacer → List Request → Prop
  | nil {granted : Bool} {p : Pacer} : Orderly granted p []
  | ask {granted : Bool} {p : Pacer} {rest : List Request} (now : UInt32) (idle : Bool)
    (after : Orderly (p.isReady now idle).1 (p.isReady now idle).2 rest) :
    Orderly granted p (.ask now idle :: rest)
  | schedule {p : Pacer} {rest : List Request} (now : UInt32) (slices : UInt16)
    (after : Orderly false (p.schedule now slices) rest) :
    Orderly true p (.schedule now slices :: rest)

/-- The request comes from a stopped game, more than 100 ms before the deadline. -/
def Premature (p : Pacer) : Request → Prop
  | .ask now true => now.toNat + 100 < p.deadline.toNat
  | _ => False

/-- **Requests in the order of time** that can still be made of a pacer. If the last question was
answered with yes, its deadline is the last one, and it has come. -/
structure Timely (granted : Bool) (p : Pacer) (requests : List Request) : Prop where
  orderly : Orderly granted p requests
  ordered : (requests.map Request.now).Pairwise (· ≤ ·)
  below : ∀ r ∈ requests, r.now.toNat < 2 ^ 32 - 1310800
  came : granted = true → p.previous = p.deadline ∧ ∀ r ∈ requests, p.deadline ≤ r.now

variable {p first : Pacer} {granted : Bool} {r : Request} {requests earlier rest : List Request}

namespace Timely

/-- **What one request leaves.** -/
theorem step (timely : Timely granted p (r :: rest)) :
    ∃ granted', Timely granted' (p.obey r) rest := by
  obtain ⟨later, onward⟩ := List.pairwise_cons.1 (List.map_cons ▸ timely.ordered)
  have early : ∀ r ∈ rest, r.now.toNat < 2 ^ 32 - 1310800 := fun r member =>
    timely.below r (List.mem_cons_of_mem _ member)
  rcases timely.orderly with _ | ⟨now, idle, after⟩ | ⟨now, slices, after⟩
  · refine ⟨_, after, onward, early, fun yes => ?_⟩
    -- only a deadline that has come is answered with yes
    obtain ⟨-, answer⟩ | ⟨-, due, answer⟩ | ⟨-, -, answer⟩ := p.isReady_cases now idle
    · rw [answer] at yes
      cases yes
    · rw [obey, answer]
      exact ⟨rfl, fun r member => UInt32.le_trans due (later _ (List.mem_map_of_mem member))⟩
    · rw [answer] at yes
      cases yes
  · exact ⟨false, after, onward, early, nofun⟩

/-- What some requests leave. -/
theorem run (timely : Timely granted p (earlier ++ rest)) :
    ∃ granted', Timely granted' (p.obeyAll earlier) rest := by
  induction earlier generalizing p granted with
  | nil => exact ⟨granted, timely⟩
  | cons r earlier ih =>
    obtain ⟨granted', timely⟩ := timely.step
    exact ih timely

/-- **Only a question that is premature sets the deadline back.** -/
theorem deadline_obey_lt_iff (timely : Timely granted p (r :: rest)) :
    (p.obey r).deadline < p.deadline ↔ p.Premature r := by
  obtain ⟨orderly, -, below, came⟩ := timely
  have early := below r List.mem_cons_self
  rw [UInt32.lt_iff_toNat_lt]
  rcases orderly with _ | ⟨now, idle, -⟩ | ⟨now, slices, -⟩
  · obtain ⟨rfl, answer⟩ | ⟨rfl, -, answer⟩ | ⟨rfl, -, answer⟩ := p.isReady_cases now idle
    · change now.toNat < _ at early
      rw [obey, answer, toNat_add_idleDelay (by omega)]
      exact Iff.rfl
    · rw [obey, answer]
      exact ⟨fun back => absurd back (Nat.lt_irrefl _), False.elim⟩
    · rw [obey, answer]
      exact ⟨fun back => absurd back (Nat.lt_irrefl _), False.elim⟩
  · obtain ⟨same, due⟩ := came rfl
    have due : p.deadline.toNat ≤ now.toNat := UInt32.le_iff_toNat_le.1 (due _ List.mem_cons_self)
    have word : slices.toNat < 2 ^ 16 := slices.toNat_lt
    change now.toNat < _ at early
    rw [obey, toNat_deadline_schedule _ _ _ (by rw [same]; omega), same]
    refine ⟨fun back => ?_, False.elim⟩
    omega

theorem toNat_deadline_obey (timely : Timely granted p (r :: rest)) {now : UInt32}
    (stopped : r = .ask now true) : (p.obey r).deadline.toNat = now.toNat + 100 := by
  have early := timely.below r List.mem_cons_self
  rw [stopped] at early ⊢
  change now.toNat < _ at early
  exact toNat_add_idleDelay (by omega)

/-- **Without a premature question deadlines only slide forward.** -/
theorem deadline_le_obeyAll (timely : Timely granted p requests)
    (patient : ∀ earlier r later, requests = earlier ++ r :: later →
      ¬ (p.obeyAll earlier).Premature r) :
    p.deadline ≤ (p.obeyAll requests).deadline := by
  induction requests generalizing p granted with
  | nil => exact UInt32.le_refl _
  | cons r rest ih =>
    have onward : p.deadline ≤ (p.obey r).deadline := by
      rw [← UInt32.not_lt, timely.deadline_obey_lt_iff]
      exact patient [] r rest rfl
    obtain ⟨granted', timely'⟩ := timely.step
    refine UInt32.le_trans onward (ih timely' ?_)
    rintro earlier r' later rfl
    exact patient (r :: earlier) r' later rfl

end Timely

end Pacer

/-- **A frame stays on screen for its slices**, counted from its deadline, or at least until 100 ms
after the game was first stopped. -/
theorem Machine.Call.Timely.le_start_of_done {σ : Type} {h : Host σ} {x : Machine.Call σ}
    {later : List (Machine.Call σ)} (timely : Machine.Call.Timely h (x :: later))
    (done : (x.ran h).result = .ok true) {b : Nat} (bound : b ≤ x.due + 20 * x.slices h)
    (stopped : ∀ z ∈ later, z.controls.idle = true → b ≤ z.start h + 100) :
    ∀ y ∈ later, y.Executes h → b ≤ y.start h := by
  refine timely.tail.le_start_of_executes (fun z head => ?_) stopped
  rw [timely.due_head z head, timely.paced_head.next_of_done done]
  exact bound.trans (Nat.le_max_left _ _)

namespace Pacer

/-- **How deadlines slide.** Of any requests to a pacer, in the order of time and not too late, of
which each that sets a deadline comes right after a question that was answered with yes: the only
one that can set a deadline back is a question in a stopped game, and it does so if it comes more
than 100 ms before the deadline, which is then 100 ms after the question. If there is no such
question, deadlines only slide forward. A pass of a machine that has left some slices for its frame
is followed by no other pass before these have passed, counted from its deadline, if the game has
not been stopped since, or not before the last 100 ms of them; and in any case not before 100 ms
after the game was first stopped. -/
theorem deadline_slides (first : Pacer) (requests : List Request)
    (orderly : Orderly false first requests)
    (ordered : (requests.map Request.now).Pairwise (· ≤ ·))
    (below : ∀ r ∈ requests, r.now.toNat < 2 ^ 32 - 1310800) :
    (∀ earlier r later, requests = earlier ++ r :: later →
      let p := first.obeyAll earlier
      ((p.obey r).deadline < p.deadline ↔ p.Premature r) ∧
        ∀ now, r = .ask now true → (p.obey r).deadline.toNat = now.toNat + 100) ∧
      ((∀ earlier r later, requests = earlier ++ r :: later →
          ¬ (first.obeyAll earlier).Premature r) →
        ∀ earlier later, requests = earlier ++ later →
          (first.obeyAll earlier).deadline ≤ (first.obeyAll requests).deadline) ∧
      ∀ (σ : Type) (h : Host σ) (x : Machine.Call σ) (later : List (Machine.Call σ)),
        Machine.Call.Timely h (x :: later) → (x.ran h).result = .ok true →
        ∀ b ≤ x.due + 20 * x.slices h,
          (∀ z ∈ later, z.controls.idle = true → b ≤ z.start h + 100) →
          ∀ y ∈ later, y.Executes h → b ≤ y.start h := by
  have timely : Timely false first requests := ⟨orderly, ordered, below, nofun⟩
  refine ⟨?_, ?_, fun σ h x later timely done b bound stopped =>
    timely.le_start_of_done done bound stopped⟩
  · rintro earlier r later rfl
    obtain ⟨granted, timely⟩ := timely.run
    exact ⟨timely.deadline_obey_lt_iff, fun now stopped => timely.toNat_deadline_obey stopped⟩
  · rintro patient earlier later rfl
    obtain ⟨granted, timely⟩ := timely.run
    rw [obeyAll_append]
    refine timely.deadline_le_obeyAll fun between r rest split => ?_
    rw [← obeyAll_append]
    exact patient (earlier ++ between) r rest (by rw [split, List.append_assoc])

/-- A game that is stopped in the last 100 ms of a frame of two seconds: the deadline slides. -/
theorem deadline_slides_late :
    let requests : List Request :=
      [.ask 0 false, .schedule 0 100, .ask 1950 true, .ask 2050 false]
    let before := start.obeyAll (requests.take 2)
    before.deadline = 2000 ∧ ¬ (before.obey (.ask 1950 true)).deadline < before.deadline ∧
      (before.obey (.ask 1950 true)).deadline.toNat = 2050 := by
  intro requests before
  have orderly : Orderly false start requests :=
    .ask 0 false (.schedule 0 100 (.ask 1950 true (.ask 2050 false .nil)))
  obtain ⟨back, delayed⟩ := (deadline_slides start requests orderly (by decide) (by decide)).1
    (requests.take 2) (.ask 1950 true) [.ask 2050 false] rfl
  have patient : ¬ before.Premature (.ask 1950 true) := by
    change ¬ 1950 + 100 < 2000
    decide
  exact ⟨by decide, mt back.1 patient, delayed 1950 rfl⟩

/-- **A deadline that is set back.** A frame that is due at once is to stay on screen for two seconds.
The game is stopped after 10 ms and goes on, and at 110 ms the next pass is due. The same happens to
the passes of a machine. -/
theorem deadline_set_back :
    let requests : List Request :=
      [.ask 0 false, .schedule 0 100, .ask 10 true, .ask 110 false]
    let h := Rehearsal.host
    let rehearsal (now : UInt32) : Rehearsal := { Rehearsal.start [] with now := now }
    let m := (Machine.powerOn .standard 0).install #[0x00, 0xff, 0, 100, 0x06, 0x06]
    let one : Machine.Call Rehearsal := ⟨m, .neutral, rehearsal 0⟩
    let two : Machine.Call Rehearsal :=
      ⟨(one.ran h).machine, { Controls.neutral with pause := true }, rehearsal 10⟩
    let three : Machine.Call Rehearsal := ⟨(two.ran h).machine, .neutral, rehearsal 110⟩
    (Orderly false start requests ∧ (requests.map Request.now).Pairwise (· ≤ ·) ∧
      (∀ r ∈ requests, r.now.toNat < 2 ^ 32 - 1310800) ∧
      (start.obeyAll (requests.take 2)).deadline = 2000 ∧
      (start.obeyAll (requests.take 3)).deadline = 110 ∧
      ((start.obeyAll (requests.take 3)).isReady 110 false).1 = true) ∧
      Machine.Call.Timely h [one, two, three] ∧ (one.ran h).result = .ok true ∧
      one.due + 20 * one.slices h = 2000 ∧ three.Executes h ∧ three.start h = 110 := by
  intro requests h rehearsal m one two three
  have ticks : [one, two, three].flatMap (Machine.Call.ticks h) = [0, 0, 10, 110, 110] := by
    decide +kernel
  have timely : Machine.Call.Timely h [one, two, three] :=
    ⟨.cons_cons rfl (.cons_cons rfl (.singleton _)), by rw [ticks]; decide, by rw [ticks]; decide⟩
  have figures : (one.ran h).result = .ok true ∧ one.due + 20 * one.slices h = 2000 ∧
      three.due = 110 ∧ three.start h = 110 := by
    decide +kernel
  obtain ⟨done, long, due, late⟩ := figures
  have executes : three.Executes h :=
    (timely.paced three (by simp)).executes_iff.2 ⟨rfl, by rw [due, late]⟩
  refine ⟨⟨?_, by decide, by decide, by decide, by decide, by decide⟩, timely, done, long, executes,
    late⟩
  exact .ask 0 false (.schedule 0 100 (.ask 10 true (.ask 110 false .nil)))

end Pacer

end Cinematic
