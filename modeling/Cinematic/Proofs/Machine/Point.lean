import Cinematic.Proofs.Machine.Fuel

/-!
# Points of a pass

A **point** lies between two instructions of a slice: some thread is about to execute the instruction
at some position, with so much fuel left, and it finds this machine and this host. This is what a
statement about a piece of bytecode has to begin with, since the piece is entered in the middle of a
pass, whatever has been executed until then.

Two relations say how points are reached. `Cinematic.Machine.Point.Leads` goes from a point to a later
one of the same slice; it is the part of `Cinematic.Machine.Slice` that comes before the end.
`Cinematic.Machine.Reaches` goes from the beginning of a pass to one of its points. That a pass reaches
a point means just that **the pass goes on from there**: what it has executed is the beginning of all
its executions, and what follows is what the slice does from the point on
(`Cinematic.Machine.Reaches.resumed`).

A point says at which position the thread is, and the machine says at which offset the thread stands.
At every point that a pass reaches the two agree (`Cinematic.Machine.Reaches.stands`).
-/

namespace Cinematic

namespace Machine

/-- **A point of a slice**, between two instructions. -/
structure Point (σ : Type) where
  /-- The thread. -/
  thread : Fin threadCount
  /-- The fuel that is left. -/
  fuel : Nat
  /-- The machine that the next instruction finds. -/
  machine : Machine
  /-- The host that it finds. -/
  host : σ
  /-- The position of the next instruction. -/
  pos : Nat

namespace Point

/-- **A slice leads from a point to another**, by instructions that are completed and do not end it. -/
inductive Leads {σ : Type} (h : Host σ) : Point σ → List Execution → Point σ → Prop
  | stays (p : Point σ) : Leads h p [] p
  | goes {t : Fin threadCount} {fuel : Nat} {m m' : Machine} {s s' : σ} {pos resume : Nat}
    {e : Execution} {es : List Execution} {q : Point σ}
    (here : e.IsAt h t m s pos s') (done : e.outcome = .ok resume m')
    (more : e.instruction.yields = false) (rest : Leads h ⟨t, fuel, e.after, s', resume⟩ es q) :
    Leads h ⟨t, fuel + 1, m, s, pos⟩ (e :: es) q

/-- The thread stands where the next instruction is. -/
def Stands {σ : Type} (p : Point σ) : Prop := (p.machine.thread p.thread).pc = p.pos.toUInt16

namespace Leads

variable {σ : Type} {h : Host σ} {p q : Point σ} {es : List Execution}

theorem trans {q' : Point σ} {es' : List Execution} (first : Leads h p es q)
    (second : Leads h q es' q') : Leads h p (es ++ es') q' := by
  induction first with
  | stays => exact second
  | goes here done more _ ih => exact .goes here done more (ih second)

/-- It is the slice of one thread. -/
theorem thread (leads : Leads h p es q) : p.thread = q.thread := by
  induction leads with
  | stays => rfl
  | goes _ _ _ _ ih => exact ih

theorem course (leads : Leads h p es q) : Course p.machine es q.machine := by
  induction leads with
  | stays => exact .nil _
  | goes here _ _ _ ih =>
    rw [← here.before]
    exact .cons ih

/-- **The thread is put to where it goes on.** -/
theorem stands (leads : Leads h p es q) (place : p.Stands) : q.Stands := by
  induction leads with
  | stays => exact place
  | goes here done _ _ ih =>
    refine ih ?_
    rw [Stands, ← here.thread]
    exact Execution.after_pc_self done

/-- What the slice does from the later point on, it does from the earlier one on after what lies
between. -/
theorem slice (leads : Leads h p es q) {es' : List Execution} {ran : Ran σ}
    (rest : Slice h q.thread q.fuel q.machine q.host q.pos es' ran) :
    Slice h p.thread p.fuel p.machine p.host p.pos (es ++ es') ran := by
  induction leads with
  | stays => exact rest
  | goes here done more _ ih => exact .continues here done more (ih rest)

end Leads

end Point

open Point (Leads)

/-- **A pass reaches a point** after some executions. These are the slices of the threads before the
one at the point, and the beginning of its own. -/
inductive Reaches {σ : Type} (h : Host σ) (m : Machine) (c : Controls) (s : σ) :
    List Execution → Point σ → Prop
  | intro {served rest : List (Fin threadCount)} {t : Fin threadCount} {left : Nat} {m' : Machine}
    {s' : σ} {past now : List Execution} {p : Point σ}
    (order : List.finRange threadCount = served ++ t :: rest)
    (earlier : Turns h served m.config.fuel.toNat (m.commit c) (h.observe s (.pass m.passes)) past
      ⟨m', s', .ok left⟩)
    (due : (m'.thread t).isRunnable = true)
    (slice : Leads h
      ⟨t, left, m', h.observe s' (.slice t (m'.thread t).pc), (m'.thread t).pc.toNat⟩ now p) :
    Reaches h m c s (past ++ now) p

/-- The turns of some threads and then those of others are the turns of all of them. -/
theorem Turns.append {σ : Type} {h : Host σ} {served ts : List (Fin threadCount)}
    {fuel left : Nat} {m m' : Machine} {s s' : σ} {past es : List Execution} {ran : Ran σ}
    (earlier : Turns h served fuel m s past ⟨m', s', .ok left⟩)
    (later : Turns h ts left m' s' es ran) : Turns h (served ++ ts) fuel m s (past ++ es) ran := by
  generalize ended : (⟨m', s', .ok left⟩ : Ran σ) = middle at earlier
  induction earlier with
  | done =>
    cases ended
    exact later
  | skips idle _ ih => exact .skips idle (ih ended)
  | fails => cases ended
  | serves due slice _ ih =>
    rw [List.append_assoc]
    exact .serves due slice (ih ended)

/-- Threads that are not runnable are passed over. -/
theorem Turns.of_idle {σ : Type} {h : Host σ} {ts : List (Fin threadCount)} {fuel : Nat}
    {m : Machine} {s : σ} (idle : ∀ j ∈ ts, (m.thread j).isRunnable = false) :
    Turns h ts fuel m s [] ⟨m, s, .ok fuel⟩ := by
  induction ts with
  | nil => exact .done _ _ _
  | cons j ts ih =>
    exact .skips (idle j List.mem_cons_self) (ih fun i member =>
      idle i (List.mem_cons_of_mem _ member))

namespace Reaches

variable {σ : Type} {h : Host σ} {m : Machine} {c : Controls} {s : σ} {past es : List Execution}
  {p q : Point σ}

/-- The point at which the first runnable thread begins its slice. -/
theorem first {served rest : List (Fin threadCount)} {t : Fin threadCount}
    (order : List.finRange threadCount = served ++ t :: rest)
    (idle : ∀ j ∈ served, ((m.commit c).thread j).isRunnable = false)
    (due : ((m.commit c).thread t).isRunnable = true) :
    Reaches h m c s []
      ⟨t, m.config.fuel.toNat, m.commit c,
        h.observe (h.observe s (.pass m.passes)) (.slice t ((m.commit c).thread t).pc),
        ((m.commit c).thread t).pc.toNat⟩ :=
  .intro order (.of_idle idle) due (.stays _)

/-- From a point that is reached the slice leads on to others. -/
theorem leads (reached : Reaches h m c s past p) (on : Leads h p es q) :
    Reaches h m c s (past ++ es) q := by
  obtain ⟨order, earlier, due, slice⟩ := reached
  rw [List.append_assoc]
  exact .intro order earlier due (slice.trans on)

/-- **At a point that is reached the thread stands where the next instruction is.** -/
theorem stands (reached : Reaches h m c s past p) : p.Stands := by
  obtain ⟨_, _, _, slice⟩ := reached
  exact slice.stands UInt16.ofNat_toNat.symm

theorem course (reached : Reaches h m c s past p) : Course (m.commit c) past p.machine := by
  obtain ⟨_, earlier, _, slice⟩ := reached
  exact earlier.course.append slice.course

/-- The segment is that of the machine that began the pass. -/
theorem segment (reached : Reaches h m c s past p) : p.machine.segment = m.segment := by
  rw [reached.course.kept]
  rfl

/-- **A pass goes on from a point that it reaches.** -/
theorem resumed (reached : Reaches h m c s past p) :
    ∃ others rest result, executions h m c s = past ++ rest ∧
      Resumed h p.thread others p.fuel p.machine p.host p.pos rest
        ⟨(step h m c s).machine, (step h m c s).host, result⟩ ∧
      (step h m c s).result = result.map fun _ => () := by
  obtain ⟨result, all, same⟩ := step_turns h m c s
  obtain @⟨_, rest, _, _, _, _, _, _, _, order, earlier, due, slice⟩ := reached
  rw [order] at all
  have thread := slice.thread
  dsimp only at thread
  subst thread
  have spec := slice_spec (h := h) (t := p.thread) p.fuel p.machine p.host p.pos
  generalize Machine.slice h p.thread p.fuel p.machine p.host p.pos = ran at spec
  obtain ⟨m', s', ended⟩ := ran
  cases ended with
  | error x =>
    -- the slice of the thread fails, and with it the pass
    obtain ⟨same', ran⟩ := all.unique (earlier.append (.fails due (slice.slice spec)))
    have resumed : Resumed h p.thread rest _ _ _ _ _ _ := .fails spec
    rw [← ran] at resumed
    exact ⟨rest, _, result, by rw [same', List.append_assoc], resumed, same⟩
  | ok left =>
    have others := turns_spec (h := h) rest left m'
      (h.observe s' (.yielded p.thread (m'.thread p.thread).pc))
    obtain ⟨same', ran⟩ := all.unique (earlier.append (.serves due (slice.slice spec) others))
    have resumed := Resumed.serves spec others
    rw [← ran] at resumed
    exact ⟨rest, _, result, by simp only [same', List.append_assoc], resumed, same⟩

/-- A slice that fails from a point on fails the pass, and leaves what the pass leaves. -/
theorem step_of_failed (reached : Reaches h m c s past p) {m' : Machine} {s' : σ}
    {x : RuntimeError}
    (slice : Slice h p.thread p.fuel p.machine p.host p.pos es ⟨m', s', .error x⟩) :
    executions h m c s = past ++ es ∧ (step h m c s).machine = m' ∧ (step h m c s).host = s' ∧
      (step h m c s).result = .error x := by
  obtain ⟨others, rest, result, executed, resumed, same⟩ := reached.resumed
  generalize ended : (⟨(step h m c s).machine, (step h m c s).host, result⟩ : Ran σ) = ran
    at resumed
  cases resumed with
  | fails slice' =>
    obtain ⟨rfl, ran⟩ := slice.unique slice'
    rw [← ran] at ended
    cases ended
    exact ⟨executed, rfl, rfl, same⟩
  | serves slice' => cases (slice.unique slice').2

/-- **A pass fails at a point with no fuel left.** -/
theorem step_of_exhausted (reached : Reaches h m c s past p) (none : p.fuel = 0) :
    executions h m c s = past ∧ (step h m c s).machine = p.machine ∧
      (step h m c s).host = p.host ∧
      (step h m c s).result = .error (.fuelExhausted p.thread p.pos.toUInt16) := by
  have slice : Slice h p.thread p.fuel p.machine p.host p.pos []
      ⟨p.machine, p.host, .error (.fuelExhausted p.thread p.pos.toUInt16)⟩ := by
    rw [none]
    exact .exhausted _ _ _
  have ends := reached.step_of_failed slice
  rwa [List.append_nil] at ends

end Reaches

end Machine

end Cinematic
