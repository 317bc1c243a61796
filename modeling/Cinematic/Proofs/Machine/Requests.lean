import Cinematic.Host.Rehearsal
import Cinematic.Proofs.Machine.Life
import Cinematic.Proofs.Machine.Threads

/-!
# Requests take effect at the next commit

Threads act on one another by requests, and a request waits until the next pass commits it. **Of all
requests that the instructions of a pass have made, the last one counts**, whichever threads made
them and however the pass has ended (`Cinematic.Machine.Life.commit_requests`).

Requests about the place of a thread and about its activity are kept apart, and they live for
different times. A place is requested for the next commit only. An activity, once requested, is
committed again by every pass until something else is requested, so it is the last request since
the segment was installed that counts – a thread that has been paused stays paused also when it is
started anew.
-/

namespace Cinematic

open Bytecode Execution

/-- The place that a commit gives to a thread by the last request about it. Two targets are no
places: one asks for the end of the thread, and the other for nothing, which also withdraws whatever
was asked for before. -/
def PlaceRequest.granted (pc : UInt16) : Option PlaceRequest → UInt16
  | none => pc
  | some .halt => 0xffff
  | some (.start target) =>
    if target < 0xfffe then target else if target = 0xfffe then 0xffff else pc

/-- A thread commits the word that notes the last request, or no request. -/
theorem Thread.commit_pc_of_noted {t : Thread} (last : Option PlaceRequest)
    (noted : t.requestedPc = (last.map PlaceRequest.word).getD noPc) :
    t.commit.pc = PlaceRequest.granted t.pc last := by
  rw [commit]
  dsimp only
  rw [noted]
  cases last with
  | none => rfl
  | some request =>
    cases request with
    | halt => rfl
    | start target =>
      change (if target = 0xffff then t.pc else if target = 0xfffe then 0xffff else target)
        = if target < 0xfffe then target else if target = 0xfffe then 0xffff else t.pc
      by_cases place : target < 0xfffe
      · have noted : target ≠ 0xffff ∧ target ≠ 0xfffe := by
          constructor <;> rintro rfl <;> exact absurd place (by decide)
        rw [if_pos place, if_neg noted.1, if_neg noted.2]
      · -- only the two targets that are no places remain
        have sentinel : target = 0xfffe ∨ target = 0xffff := by
          have above := UInt16.not_lt.1 place
          have below := target.toNat_lt
          rw [UInt16.le_iff_toNat_le] at above
          rw [← UInt16.toNat_inj, ← UInt16.toNat_inj]
          change 65534 ≤ target.toNat at above
          change target.toNat = 65534 ∨ target.toNat = 65535
          omega
        rcases sentinel with rfl | rfl <;> rfl

namespace Machine

variable {config : MachineConfig} {seed : UInt16} {m : Machine} {es : List Execution}

theorem requestedActivity_of_initialThreads (initial : m.threads = initialThreads)
    (j : Fin threadCount) : (m.thread j).requestedActivity = .running := by
  unfold thread
  rw [initial]
  revert j
  decide

/-- **The activity that is requested of a thread was last asked for since the segment was
installed.** -/
theorem Life.requestedActivity (life : Life config seed m es) (j : Fin threadCount) :
    (m.thread j).requestedActivity = (lastActivity? j es).getD .running := by
  induction life with
  | powerOn | install | enterPart => exact requestedActivity_of_initialThreads rfl j
  | setRegister _ _ _ ih | pace _ _ ih => exact ih
  | @step m es _ σ h c s ih =>
    have course := (step_course h m c s).requestedActivity j
    rw [commit_thread] at course
    change _ = (lastActivity? j (executions h m c s)).getD (m.thread j).requestedActivity at course
    rw [course, ih, lastActivity?_append, Option.getD_or]

/-- **Requests take effect at the next commit, and the last one counts.** After a pass, and whatever
happens then apart from a change to the threads, the next commit puts a thread to the place that was
last asked for in this pass, and lets it run or not as was last asked for since the segment was
installed. Before this commit no execution has moved another thread than its own, and none has
changed the activity of any. -/
theorem Life.commit_requests (life : Life config seed m es) {σ : Type} (h : Host σ)
    (c c' : Controls) (s : σ) (later : Machine)
    (kept : later.threads = (Machine.step h m c s).machine.threads) (j : Fin threadCount) :
    ((later.commit c').thread j).pc
        = PlaceRequest.granted (later.thread j).pc (lastPlace? j (executions h m c s)) ∧
      ((later.commit c').thread j).activity
        = (lastActivity? j (es ++ executions h m c s)).getD .running ∧
      ∀ e ∈ executions h m c s,
        (j ≠ e.thread → (e.after.thread j).pc = (e.before.thread j).pc) ∧
          (e.after.thread j).activity = (e.before.thread j).activity := by
  have course := step_course h m c s
  have same : later.thread j = (Machine.step h m c s).machine.thread j := by
    unfold thread
    rw [kept]
  refine ⟨?_, ?_, fun e _ => ⟨e.after_pc_of_ne, e.after_activity j⟩⟩
  · rw [commit_thread]
    refine Thread.commit_pc_of_noted _ ?_
    -- the commit at the beginning of the pass has left no request
    have fresh : ((m.commit c).thread j).requestedPc = Thread.noPc := by
      rw [commit_thread]
      rfl
    rw [same, course.requestedPc j, fresh]
  · rw [commit_thread]
    change (later.thread j).requestedActivity = _
    rw [same]
    exact (life.step h c s).requestedActivity j

/-- Thread 0 asks thread 1 to start, to end, to start elsewhere and to pause, and then fails. -/
theorem commit_requests_failing :
    let start := (powerOn .standard 0).install
      #[0x08, 1, 0, 32, 0x0c, 1, 1, 2, 0x08, 1, 0, 16, 0x0c, 0, 3, 1, 0x1b]
    let failing := step Rehearsal.host start .neutral (.start [])
    let j : Fin threadCount := ⟨1, by decide⟩
    failing.result.isOk = false ∧ ((failing.machine.commit .neutral).thread j).pc = 16 ∧
      ((failing.machine.commit .neutral).thread j).activity = .paused := by
  intro start failing j
  have fresh : Life .standard 0 start [] := Life.powerOn.install _
  obtain ⟨place, activity, -⟩ := fresh.commit_requests Rehearsal.host .neutral .neutral (.start [])
    failing.machine rfl j
  have start16 : lastPlace? j (executions Rehearsal.host start .neutral (.start []))
      = some (.start 16) := by
    decide +kernel
  have paused : lastActivity? j (executions Rehearsal.host start .neutral (.start []))
      = some .paused := by
    decide +kernel
  refine ⟨by decide +kernel, ?_, ?_⟩
  · rw [place, start16]
    rfl
  · rw [activity, List.nil_append, paused]
    rfl

end Machine

end Cinematic
