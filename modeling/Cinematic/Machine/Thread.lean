/-!
# Threads

The machine has 64 threads, of which each has a place in the segment and may be paused. Threads
act on one another, and on themselves, only by **requests**: a place to start from, the wish to
end, or to be paused or resumed. A request is written into the thread that it concerns and
takes effect when the next pass *commits* it (`Cinematic.Thread.commit`), so nothing that one
thread does can change which threads run in the same pass.

Two words are no places. `Cinematic.Thread.noPc` marks a thread without a place, or without a
request; `Cinematic.Thread.haltRequest` asks for the thread to be ended.
-/

namespace Cinematic

/-- How many threads there are. -/
def threadCount : Nat := 64

/-- Whether a thread may run. -/
inductive Activity where
  | running | paused
deriving Repr, DecidableEq

/-- What can be seen of a thread from outside. -/
inductive ThreadStatus where
  /-- It has no place. -/
  | halted
  /-- It runs in the next pass. -/
  | runnable
  /-- It has a place but may not run. -/
  | paused
deriving Repr, DecidableEq

/-- The word that a summary uses for a status. -/
def ThreadStatus.name : ThreadStatus → String
  | halted => "halted"
  | runnable => "runnable"
  | paused => "paused"

/-- A thread and the requests that concern it. -/
structure Thread where
  /-- Where it goes on. -/
  pc : UInt16
  /-- Where it was asked to start. -/
  requestedPc : UInt16
  /-- Whether it may run. -/
  activity : Activity
  /-- Whether it was asked to run or to pause. -/
  requestedActivity : Activity
deriving Repr, DecidableEq

namespace Thread

/-- The place of a thread that has none, and the request that asks for nothing. -/
def noPc : UInt16 := 0xffff

/-- The request that asks for the thread to be ended. -/
def haltRequest : UInt16 := 0xfffe

/-- A thread without a place and without requests. -/
def halted : Thread := ⟨noPc, noPc, .running, .running⟩

/-- A thread that starts at a place. -/
def startingAt (pc : UInt16) : Thread := { halted with pc := pc }

/-- **Lets the requests take effect.** A place or the wish to end is a request for one time; whether
the thread may run stays as it was last asked for. -/
def commit (t : Thread) : Thread where
  pc :=
    if t.requestedPc = noPc then t.pc
    else if t.requestedPc = haltRequest then noPc
    else t.requestedPc
  requestedPc := noPc
  activity := t.requestedActivity
  requestedActivity := t.requestedActivity

/-- Whether the thread runs in a pass. -/
def isRunnable (t : Thread) : Bool := t.pc ≠ noPc ∧ t.activity = .running

/-- What can be seen of the thread from outside. -/
def status (t : Thread) : ThreadStatus :=
  if t.pc = noPc then .halted
  else if t.activity = .paused then .paused
  else .runnable

theorem commit_commit (t : Thread) : t.commit.commit = t.commit := by
  simp [commit]

theorem isRunnable_iff (t : Thread) : t.isRunnable = true ↔ t.status = .runnable := by
  rcases t with ⟨pc, requestedPc, activity, requestedActivity⟩
  by_cases h : pc = noPc <;> cases activity <;> simp [isRunnable, status, h]

end Thread

end Cinematic
