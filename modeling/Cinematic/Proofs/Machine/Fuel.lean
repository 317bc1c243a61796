import Cinematic.Proofs.Machine.Schedule

/-!
# Fuel cuts a pass short and does nothing else

A pass may execute only so many instructions, over all its threads. **This limit never changes what
a pass does, only how far it gets** (`Cinematic.Machine.step_fuel`): a pass that does not run out of
fuel is the same under every higher limit, and a pass that does has executed exactly as many
instructions as it was allowed, and stands where the pass under a higher limit stands after as many.

The limit is looked at in two places, so there are two arguments. That it is a field of the machine
does not matter, because no instruction looks at it (`Cinematic.Machine.unseen_withFuel`). What is
left is the fuel that slices hand on to one another. A slice that ends for another reason ends in the
same way if there is more of it (`Cinematic.Machine.Slice.refuel`), and one that runs out can be
taken up again at the very place (`Cinematic.Machine.Slice.resumes`). To conclude something about the
functions from this it takes one more fact: slices and turns can go in one way only
(`Cinematic.Machine.Slice.unique`, `Cinematic.Machine.Turns.unique`).
-/

namespace Cinematic

open Bytecode

/-! ### One way to go -/

namespace Execution

variable {σ : Type} {h : Host σ} {t : Fin threadCount} {m : Machine} {s s' s'' : σ} {pos : Nat}
  {e e' : Execution}

/-- The instruction of an execution stands at its position. -/
theorem IsAt.read (here : e.IsAt h t m s pos s') :
    ∃ c, Instruction.decode ⟨m.segment, pos⟩ = .ok e.instruction c ∧ c.pos = e.next := by
  have decoded := e.decoded
  rwa [here.before, here.position] at decoded

/-- **There is one execution at a position.** -/
theorem IsAt.unique (here : e.IsAt h t m s pos s') (there : e'.IsAt h t m s pos s'') :
    e = e' ∧ s' = s'' := by
  obtain ⟨c, read, next⟩ := here.read
  obtain ⟨c', read', next'⟩ := there.read
  obtain ⟨thread, before, position, execute⟩ := here
  obtain ⟨thread', before', position', execute'⟩ := there
  obtain ⟨_, _, _, i, _, outcome, _, _⟩ := e
  obtain ⟨_, _, _, i', _, outcome', _, _⟩ := e'
  dsimp only at *
  subst thread before position next thread' before' position' next'
  cases read.symm.trans read'
  cases execute.symm.trans execute'
  exact ⟨rfl, rfl⟩

end Execution

namespace Machine

section Unique

variable {σ : Type} {h : Host σ} {t : Fin threadCount} {ts : List (Fin threadCount)} {fuel : Nat}
  {m : Machine} {s : σ} {pos : Nat} {es es' : List Execution} {ran ran' : Ran σ}

/-- **A slice can go in one way only.** -/
theorem Slice.unique (one : Slice h t fuel m s pos es ran)
    (other : Slice h t fuel m s pos es' ran') : es = es' ∧ ran = ran' := by
  induction one generalizing es' ran' with
  | exhausted m s pos =>
    cases other
    exact ⟨rfl, rfl⟩
  | unread read =>
    cases other with
    | unread read' =>
      cases read.symm.trans read'
      exact ⟨rfl, rfl⟩
    | failed here | yields here | continues here =>
      obtain ⟨_, read', -⟩ := here.read
      cases read.symm.trans read'
  | failed here fails =>
    cases other with
    | unread read =>
      obtain ⟨_, read', -⟩ := here.read
      cases read.symm.trans read'
    | failed there fails' =>
      obtain ⟨rfl, rfl⟩ := here.unique there
      obtain rfl := fails.unique fails'
      exact ⟨rfl, rfl⟩
    | yields there done | continues there done =>
      obtain ⟨rfl, rfl⟩ := here.unique there
      exact absurd fails (Execution.not_fails_of_ok done)
  | yields here done last =>
    cases other with
    | unread read =>
      obtain ⟨_, read', -⟩ := here.read
      cases read.symm.trans read'
    | failed there fails =>
      obtain ⟨rfl, rfl⟩ := here.unique there
      exact absurd fails (Execution.not_fails_of_ok done)
    | yields there =>
      obtain ⟨rfl, rfl⟩ := here.unique there
      exact ⟨rfl, rfl⟩
    | continues there _ more =>
      obtain ⟨rfl, rfl⟩ := here.unique there
      cases last.symm.trans more
  | continues here done more _ ih =>
    cases other with
    | unread read =>
      obtain ⟨_, read', -⟩ := here.read
      cases read.symm.trans read'
    | failed there fails =>
      obtain ⟨rfl, rfl⟩ := here.unique there
      exact absurd fails (Execution.not_fails_of_ok done)
    | yields there _ last =>
      obtain ⟨rfl, rfl⟩ := here.unique there
      cases last.symm.trans more
    | continues there done' _ rest =>
      obtain ⟨rfl, rfl⟩ := here.unique there
      cases done.symm.trans done'
      obtain ⟨rfl, rfl⟩ := ih rest
      exact ⟨rfl, rfl⟩

/-- **The turns of some threads can go in one way only.** -/
theorem Turns.unique (one : Turns h ts fuel m s es ran) (other : Turns h ts fuel m s es' ran') :
    es = es' ∧ ran = ran' := by
  induction one generalizing es' ran' with
  | done =>
    cases other
    exact ⟨rfl, rfl⟩
  | skips idle _ ih =>
    cases other with
    | skips _ others => exact ih others
    | fails due | serves due => cases due.symm.trans idle
  | fails due slice =>
    cases other with
    | skips idle => cases due.symm.trans idle
    | fails _ slice' => exact slice.unique slice'
    | serves _ slice' => cases (slice.unique slice').2
  | serves due slice _ ih =>
    cases other with
    | skips idle => cases due.symm.trans idle
    | fails _ slice' => cases (slice.unique slice').2
    | serves _ slice' others =>
      obtain ⟨rfl, same⟩ := slice.unique slice'
      cases same
      obtain ⟨rfl, rfl⟩ := ih others
      exact ⟨rfl, rfl⟩

end Unique

/-! ### How much is spent -/

/-- There is no fuel left. -/
def OutOfFuel {α : Type} (result : Except RuntimeError α) : Prop :=
  ∃ t pc, result = .error (.fuelExhausted t pc)

/-- What a run leaves behind if there is more fuel than it needs. -/
def Ran.refuel {σ : Type} (ran : Ran σ) (extra : Nat) : Ran σ :=
  { ran with result := ran.result.map (· + extra) }

theorem not_outOfFuel_ok {α : Type} (a : α) : ¬ OutOfFuel (.ok a) := by
  rintro ⟨t, pc, out⟩
  cases out

instance {α : Type} : (result : Except RuntimeError α) → Decidable (OutOfFuel result)
  | .ok a => isFalse (not_outOfFuel_ok a)
  | .error (.fuelExhausted t pc) => isTrue ⟨t, pc, rfl⟩
  | .error (.stackOverflow _ _) | .error (.stackUnderflow _ _) | .error (.invalidOpcode _ _ _)
  | .error (.invalidCondition _ _ _) | .error (.invalidResetMode _ _ _)
  | .error (.invalidThread _ _ _) | .error (.bytecode _ _) | .error (.resource _ _) =>
    isFalse fun ⟨_, _, out⟩ => by cases out

/-- No instruction fails for want of fuel. -/
theorem not_outOfFuel_of_failed {e : Execution} {x : RuntimeError} (fails : e.Fails x)
    {α : Type} : ¬ OutOfFuel (.error x : Except RuntimeError α) := by
  rintro ⟨t, pc, out⟩
  cases out
  have cause := fails.cause
  generalize e.instruction = i at cause
  cases cause

section Spent

variable {σ : Type} {h : Host σ} {t : Fin threadCount} {ts : List (Fin threadCount)} {fuel : Nat}
  {m : Machine} {s : σ} {pos : Nat} {es : List Execution} {ran : Ran σ}

/-- A slice spends a unit for an instruction. -/
theorem Slice.length_add_left (slice : Slice h t fuel m s pos es ran) {left : Nat}
    (done : ran.result = .ok left) : es.length + left = fuel := by
  induction slice with
  | exhausted | unread | failed => cases done
  | yields =>
    cases done
    rw [List.length_singleton, Nat.add_comm]
  | continues _ _ _ _ ih =>
    rw [List.length_cons, Nat.add_right_comm, ih done]

theorem Slice.length_le (slice : Slice h t fuel m s pos es ran) : es.length ≤ fuel := by
  induction slice with
  | exhausted => exact Nat.le_refl 0
  | unread => exact Nat.zero_le _
  | failed | yields => exact Nat.le_add_left 1 _
  | continues _ _ _ _ ih => exact Nat.add_le_add_right ih 1

theorem Turns.length_le (turns : Turns h ts fuel m s es ran) : es.length ≤ fuel := by
  induction turns with
  | done => exact Nat.zero_le _
  | skips _ _ ih => exact ih
  | fails _ slice => exact slice.length_le
  | serves _ slice _ ih =>
    have spent := slice.length_add_left rfl
    rw [List.length_append]
    omega

/-! ### More fuel than is needed -/

/-- **A slice that does not run out of fuel needs no more.** -/
theorem Slice.refuel (slice : Slice h t fuel m s pos es ran) (enough : ¬ OutOfFuel ran.result)
    (extra : Nat) : Slice h t (fuel + extra) m s pos es (ran.refuel extra) := by
  induction slice with
  | exhausted => exact absurd ⟨_, _, rfl⟩ enough
  | unread read =>
    rw [Nat.add_right_comm]
    exact .unread read
  | failed here fails =>
    rw [Nat.add_right_comm]
    exact .failed here fails
  | yields here done last =>
    rw [Nat.add_right_comm]
    exact .yields here done last
  | continues here done more _ ih =>
    rw [Nat.add_right_comm]
    exact .continues here done more (ih enough)

/-- **Turns that do not run out of fuel need no more.** -/
theorem Turns.refuel (turns : Turns h ts fuel m s es ran) (enough : ¬ OutOfFuel ran.result)
    (extra : Nat) : Turns h ts (fuel + extra) m s es (ran.refuel extra) := by
  induction turns with
  | done => exact .done _ _ _
  | skips idle _ ih => exact .skips idle (ih enough)
  | fails due slice => exact .fails due (slice.refuel enough extra)
  | serves due slice _ ih =>
    exact .serves due (slice.refuel (not_outOfFuel_ok _) extra) (ih enough)

end Spent

/-! ### Taking a pass up again -/

/-- **How the slice of a thread can go on from within**, and the slices of some others after it. -/
inductive Resumed {σ : Type} (h : Host σ) (t : Fin threadCount) (rest : List (Fin threadCount))
    (fuel : Nat) (m : Machine) (s : σ) (pos : Nat) : List Execution → Ran σ → Prop
  | fails {m' : Machine} {s' : σ} {es : List Execution} {x : RuntimeError}
    (slice : Slice h t fuel m s pos es ⟨m', s', .error x⟩) :
    Resumed h t rest fuel m s pos es ⟨m', s', .error x⟩
  | serves {fuel' : Nat} {m' : Machine} {s' : σ} {es es' : List Execution} {ran : Ran σ}
    (slice : Slice h t fuel m s pos es ⟨m', s', .ok fuel'⟩)
    (others : Turns h rest fuel' m' (h.observe s' (.yielded t (m'.thread t).pc)) es' ran) :
    Resumed h t rest fuel m s pos (es ++ es') ran

section Resumed

variable {σ : Type} {h : Host σ} {t : Fin threadCount} {ts rest : List (Fin threadCount)}
  {fuel : Nat} {m : Machine} {s : σ} {pos : Nat} {es : List Execution} {ran : Ran σ}

theorem exists_resumed (h : Host σ) (t : Fin threadCount) (rest : List (Fin threadCount))
    (fuel : Nat) (m : Machine) (s : σ) (pos : Nat) :
    ∃ es ran, Resumed h t rest fuel m s pos es ran := by
  have spec := slice_spec (h := h) (t := t) fuel m s pos
  generalize slice h t fuel m s pos = ran at spec
  obtain ⟨m', s', result⟩ := ran
  cases result with
  | error x => exact ⟨_, _, .fails spec⟩
  | ok left => exact ⟨_, _, .serves spec (turns_spec _ _ _ _)⟩

theorem Resumed.course (resumed : Resumed h t rest fuel m s pos es ran) :
    Course m es ran.machine := by
  cases resumed with
  | fails slice => exact slice.course
  | serves slice others => exact slice.course.append others.course

/-- **A slice that runs out of fuel has spent all of it on completed instructions, and can be taken
up again.** -/
theorem Slice.resumes (slice : Slice h t fuel m s pos es ran) (out : OutOfFuel ran.result) :
    es.length = fuel ∧ (∀ e ∈ es, e.isCompleted = true) ∧
      ∃ place, ∀ {extra : Nat} {es' : List Execution} {ran' : Ran σ},
        Slice h t extra ran.machine ran.host place es' ran' →
          Slice h t (fuel + extra) m s pos (es ++ es') ran' := by
  induction slice with
  | exhausted m s pos =>
    refine ⟨rfl, by simp, pos, fun {extra _ _} again => ?_⟩
    rw [Nat.zero_add]
    exact again
  | unread =>
    obtain ⟨_, _, out⟩ := out
    cases out
  | failed _ fails => exact absurd out (not_outOfFuel_of_failed fails)
  | yields => exact absurd out (not_outOfFuel_ok _)
  | continues here done more _ ih =>
    obtain ⟨spent, complete, place, again⟩ := ih out
    refine ⟨congrArg (· + 1) spent, ?_, place, fun rest => ?_⟩
    · intro e member
      rcases List.mem_cons.1 member with rfl | later
      · exact Execution.isCompleted_of_ok done
      · exact complete e later
    · rw [Nat.add_right_comm]
      exact .continues here done more (again rest)

/-- **Turns that run out of fuel have spent all of it on completed instructions, and can be taken up
again** within the slice of some thread. -/
theorem Turns.resumes (turns : Turns h ts fuel m s es ran) (out : OutOfFuel ran.result) :
    es.length = fuel ∧ (∀ e ∈ es, e.isCompleted = true) ∧
      ∃ t rest place, ∀ {extra : Nat} {es' : List Execution} {ran' : Ran σ},
        Resumed h t rest extra ran.machine ran.host place es' ran' →
          Turns h ts (fuel + extra) m s (es ++ es') ran' := by
  induction turns with
  | done => exact absurd out (not_outOfFuel_ok _)
  | skips idle _ ih =>
    obtain ⟨spent, complete, t, rest, place, again⟩ := ih out
    exact ⟨spent, complete, t, rest, place, fun resumed => .skips idle (again resumed)⟩
  | @fails t rest _ _ _ _ _ _ _ due slice =>
    obtain ⟨spent, complete, place, again⟩ := slice.resumes out
    refine ⟨spent, complete, t, rest, place, fun resumed => ?_⟩
    cases resumed with
    | fails slice => exact .fails due (again slice)
    | serves slice others =>
      rw [← List.append_assoc]
      exact .serves due (again slice) others
  | serves due slice _ ih =>
    obtain ⟨spent, complete, t, rest, place, again⟩ := ih out
    have here := slice.length_add_left rfl
    refine ⟨?_, ?_, t, rest, place, fun {extra _ _} resumed => ?_⟩
    · rw [List.length_append]
      omega
    · intro e member
      rcases List.mem_append.1 member with now | later
      · exact slice.isCompleted rfl e now
      · exact complete e later
    · rw [List.append_assoc]
      exact .serves due (slice.refuel (not_outOfFuel_ok _) extra) (again resumed)

end Resumed

end Machine

/-! ### What has been told -/

namespace Message

/-- Whether the message shows an instruction. -/
def isInstruction : Message → Bool
  | step (.instruction _ _ _) => true
  | _ => false

theorem not_isInstruction {x : Message} (silent : x.step? = none) : ¬ x.isInstruction = true := by
  cases x with
  | step e => cases silent
  | _ => exact Bool.false_ne_true

/-- **What has been told and asked by the end of the first `n` instructions**: all that comes before
another one is shown. -/
def through : Nat → List Message → List Message
  | _, [] => []
  | 0, x :: rest => if x.isInstruction then [] else x :: through 0 rest
  | n + 1, x :: rest => x :: through (if x.isInstruction then n else n + 1) rest

theorem through_cons_of_pos {x : Message} (shown : x.isInstruction = true) (n : Nat)
    (rest : List Message) : through (n + 1) (x :: rest) = x :: through n rest := by
  rw [through, if_pos shown]

theorem through_cons_of_neg {x : Message} (other : ¬ x.isInstruction = true) (n : Nat)
    (rest : List Message) : through n (x :: rest) = x :: through n rest := by
  cases n with
  | zero => rw [through, if_neg other]
  | succ n => rw [through, if_neg other]

/-- What comes after the last instruction but is not one still belongs to it. -/
theorem through_append (told : List Message) {more : List Message}
    (next : ∀ x ∈ more.head?, x.isInstruction = true) :
    through (told.countP isInstruction) (told ++ more) = told := by
  induction told with
  | nil =>
    cases more with
    | nil => rfl
    | cons x more => exact if_pos (next x rfl)
  | cons x told ih =>
    by_cases shown : x.isInstruction = true
    · rw [List.countP_cons_of_pos shown, List.cons_append, through_cons_of_pos shown, ih]
    · rw [List.countP_cons_of_neg shown, List.cons_append, through_cons_of_neg shown, ih]

end Message

open Message (isInstruction)

section Told

variable {σ : Type} {h : Host σ}

variable {t : Fin threadCount} {ts rest : List (Fin threadCount)} {fuel : Nat} {m : Machine}
  {s s' : σ × List Message} {pos : Nat} {es : List Execution} {ran : Machine.Ran (σ × List Message)}

namespace Machine

/-- Instructions that are shown add up. -/
theorem piecewise_countP :
    Piecewise fun es told => told.countP isInstruction = es.length where
  nil := rfl
  append first second := by rw [List.countP_append, first, second, List.length_append]

/-- And nothing comes before the first of them. -/
theorem piecewise_head :
    Piecewise fun es told => told.countP isInstruction = es.length ∧
      ∀ x ∈ told.head?, x.isInstruction = true where
  nil := ⟨rfl, by simp⟩
  append {_ _ told _} first second := by
    refine ⟨piecewise_countP.append first.1 second.1, ?_⟩
    cases told with
    | nil => exact second.2
    | cons x told => exact first.2

/-- An execution shows its instruction, and that at once. -/
theorem isAt_tells {e : Execution} (here : e.IsAt h.transcribed t m s pos s') :
    ∃ told, s'.2 = s.2 ++ told ∧ told.countP isInstruction = [e].length ∧
      ∀ x ∈ told.head?, x.isInstruction = true := by
  obtain ⟨asked, minutes, silent⟩ := here.told
  have no_more : asked.countP isInstruction = 0 :=
    List.countP_eq_zero.2 fun x member => Message.not_isInstruction (silent x member)
  refine ⟨_, minutes, ?_, ?_⟩
  · rw [List.countP_cons_of_pos rfl, no_more, List.length_singleton]
  · rintro x ⟨⟩
    rfl

/-- **A slice shows each of its instructions once**, and nothing before the first. -/
theorem Slice.told (slice : Slice h.transcribed t fuel m s pos es ran) :
    ∃ told, ran.host.2 = s.2 ++ told ∧ told.countP isInstruction = es.length ∧
      ∀ x ∈ told.head?, x.isInstruction = true :=
  slice.tells piecewise_head isAt_tells

/-- **The turns of some threads show each of their instructions once.** -/
theorem Turns.told (turns : Turns h.transcribed ts fuel m s es ran) :
    ∃ told, ran.host.2 = s.2 ++ told ∧ told.countP isInstruction = es.length := by
  refine turns.tells piecewise_countP (fun here => ?_) (fun _ _ => rfl) fun _ _ => rfl
  obtain ⟨told, minutes, count, -⟩ := isAt_tells here
  exact ⟨told, minutes, count⟩

/-- What is taken up again begins with an instruction, if it shows anything. -/
theorem Resumed.told (resumed : Resumed h.transcribed t rest fuel m s pos es ran) :
    ∃ told, ran.host.2 = s.2 ++ told ∧ ∀ x ∈ told.head?, x.isInstruction = true := by
  cases resumed with
  | fails slice =>
    obtain ⟨told, minutes, -, first⟩ := slice.told
    exact ⟨told, minutes, first⟩
  | @serves _ m' s' _ _ _ slice others =>
    obtain ⟨told, minutes, count, first⟩ := slice.told
    obtain ⟨later, minutes', -⟩ := others.told
    obtain ⟨earlier, last, rfl, -⟩ := slice.exists_last rfl
    refine ⟨told ++ .step (.yielded t (m'.thread t).pc) :: later, ?_, ?_⟩
    · rw [minutes']
      simp only [Host.transcribed] at minutes ⊢
      simp [minutes]
    · -- a slice that ends well has shown an instruction
      cases told with
      | nil => simp at count
      | cons x told => exact first

end Machine

end Told

namespace Machine

/-! ### The limit of a machine -/

/-- The machine with another limit to what a pass may execute. -/
def withFuel (m : Machine) (fuel : UInt32) : Machine :=
  { m with config := { m.config with fuel := fuel } }

@[simp] theorem withFuel_withFuel (m : Machine) (fuel fuel' : UInt32) :
    (m.withFuel fuel).withFuel fuel' = m.withFuel fuel' := rfl

/-- **No instruction looks at the limit.** -/
theorem unseen_withFuel (fuel : UInt32) : Unseen (·.withFuel fuel) where
  segment _ := rfl
  registers _ := rfl
  threads _ := rfl
  stack _ := rfl
  bypasses _ _ _ _ := rfl
  setRegisters _ _ := rfl
  setThreads _ _ := rfl
  setStack _ _ := rfl

variable {σ : Type} {h : Host σ}

/-- Turns on a machine with another limit, but with the same fuel. -/
theorem turns_withFuel (h : Host σ) (ts : List (Fin threadCount)) (fuel : Nat) (m : Machine)
    (s : σ) (limit : UInt32) :
    turns h ts fuel (m.withFuel limit) s
      = { turns h ts fuel m s with machine := (turns h ts fuel m s).machine.withFuel limit } := by
  have alike := turns_alike (unseen_withFuel limit) (Host.Alike.refl h) ts fuel m (Eq.refl s)
  generalize turns h ts fuel m s = one at alike ⊢
  generalize turns h ts fuel (m.withFuel limit) s = other at alike ⊢
  cases alike with
  | intro m' related result =>
    cases related
    rfl

/-- **A pass under some limit**, seen from a machine that has another. -/
theorem step_withFuel (h : Host σ) (m : Machine) (c : Controls) (s : σ) (fuel : UInt32) :
    let ran := turns h (List.finRange threadCount) fuel.toNat (m.commit c)
      (h.observe s (.pass m.passes))
    step h (m.withFuel fuel) c s
      = ⟨ran.machine.withFuel fuel, c.seen, ran.host, ran.result.map fun _ => ()⟩ := by
  intro ran
  have opened : step h (m.withFuel fuel) c s =
      let ran := turns h (List.finRange threadCount) fuel.toNat ((m.commit c).withFuel fuel)
        (h.observe s (.pass m.passes))
      ⟨ran.machine, c.seen, ran.host, ran.result.map fun _ => ()⟩ := rfl
  rw [opened, turns_withFuel]

theorem outOfFuel_map {α β : Type} (f : α → β) (result : Except RuntimeError α) :
    OutOfFuel (result.map f) ↔ OutOfFuel result := by
  cases result with
  | error x => exact ⟨fun ⟨t, pc, out⟩ => ⟨t, pc, by cases out; rfl⟩,
      fun ⟨t, pc, out⟩ => ⟨t, pc, by cases out; rfl⟩⟩
  | ok a => exact iff_of_false (not_outOfFuel_ok _) (not_outOfFuel_ok _)

section Compare

variable {m : Machine} {c : Controls} {s : σ} {fuel fuel' : UInt32}

/-- **A pass that does not run out of fuel is the same under a higher limit.** -/
theorem step_refuel (less : fuel ≤ fuel')
    (enough : ¬ OutOfFuel (step h (m.withFuel fuel) c s).result) :
    step h (m.withFuel fuel') c s = { step h (m.withFuel fuel) c s with
      machine := (step h (m.withFuel fuel) c s).machine.withFuel fuel' } := by
  have more : fuel.toNat + (fuel'.toNat - fuel.toNat) = fuel'.toNat :=
    Nat.add_sub_cancel' (UInt32.le_iff_toNat_le.1 less)
  rw [step_withFuel, outOfFuel_map] at enough
  have refueled := (turns_spec (h := h) (List.finRange threadCount) fuel.toNat (m.commit c)
    (h.observe s (.pass m.passes))).refuel enough (fuel'.toNat - fuel.toNat)
  rw [more] at refueled
  rw [step_withFuel, step_withFuel, ← (refueled.unique (turns_spec _ _ _ _)).2]
  generalize turns h (List.finRange threadCount) fuel.toNat (m.commit c)
    (h.observe s (.pass m.passes)) = ran
  obtain ⟨m', s', result⟩ := ran
  cases result with
  | error x => rfl
  | ok left => rfl

/-- **A pass that runs out of fuel is taken up by the pass under a higher limit**, from the same
machine and the same host. -/
theorem step_resumes (less : fuel ≤ fuel')
    (out : OutOfFuel (step h (m.withFuel fuel) c s).result) :
    ∃ past rest t others place result,
      executions h (m.withFuel fuel') c s = past ++ rest ∧ past.length = fuel.toNat ∧
        Resumed h t others (fuel'.toNat - fuel.toNat)
          ((step h (m.withFuel fuel) c s).machine.withFuel fuel')
          (step h (m.withFuel fuel) c s).host place rest
          ⟨(step h (m.withFuel fuel') c s).machine, (step h (m.withFuel fuel') c s).host, result⟩ := by
  have more : fuel.toNat + (fuel'.toNat - fuel.toNat) = fuel'.toNat :=
    Nat.add_sub_cancel' (UInt32.le_iff_toNat_le.1 less)
  -- the machine has the higher limit, and yet only the fuel of the lower one
  have turns := turns_spec (h := h) (List.finRange threadCount) fuel.toNat
    ((m.commit c).withFuel fuel') (h.observe s (.pass m.passes))
  rw [step_withFuel, outOfFuel_map] at out
  rw [turns_withFuel] at turns
  obtain ⟨spent, -, t, others, place, again⟩ := turns.resumes out
  obtain ⟨rest, ran, resumed⟩ := exists_resumed h t others (fuel'.toNat - fuel.toNat) _ _ place
  have whole := again resumed
  rw [more] at whole
  -- and what follows is all that the pass under the higher limit does
  obtain ⟨result, all, -⟩ := step_turns h (m.withFuel fuel') c s
  obtain ⟨executed, rfl⟩ := whole.unique all
  refine ⟨_, rest, t, others, place, result, executed.symm, spent, ?_⟩
  rw [step_withFuel h m c s fuel]
  exact resumed

/-- **A pass that runs out of fuel has spent all of it on completed instructions.** -/
theorem executions_of_outOfFuel (out : OutOfFuel (step h m c s).result) :
    (executions h m c s).length = m.config.fuel.toNat ∧
      ∀ e ∈ executions h m c s, e.isCompleted = true := by
  obtain ⟨result, turns, same⟩ := step_turns h m c s
  rw [same, outOfFuel_map] at out
  obtain ⟨spent, complete, -⟩ := turns.resumes out
  exact ⟨spent, complete⟩

/-- **A pass that runs out of fuel leaves the machine that a pass under a higher limit has got after
as many instructions.** -/
theorem machine_of_outOfFuel (less : fuel ≤ fuel')
    (out : OutOfFuel (step h (m.withFuel fuel) c s).result) :
    (step h (m.withFuel fuel) c s).machine
      = (machineBefore ((executions h (m.withFuel fuel') c s).drop fuel.toNat)
        (step h (m.withFuel fuel') c s).machine).withFuel fuel := by
  obtain ⟨past, rest, _, _, _, _, executed, length, resumed⟩ := step_resumes less out
  rw [executed, ← length, List.drop_left, resumed.course.machineBefore_eq, withFuel_withFuel,
    step_withFuel, withFuel_withFuel]

end Compare

/-- **What a pass tells its host and asks of it**, in the order of time. -/
def minutes (h : Host σ) (m : Machine) (c : Controls) (s : σ) : List Message :=
  (step h.transcribed m c (s, [])).host.2

/-- A pass shows each of its instructions once. -/
theorem countP_minutes (h : Host σ) (m : Machine) (c : Controls) (s : σ) :
    (minutes h m c s).countP isInstruction
      = (executions h.transcribed m c (s, [])).length := by
  obtain ⟨result, turns, -⟩ := step_turns h.transcribed m c (s, [])
  obtain ⟨told, minutes, count⟩ := turns.told
  rw [Machine.minutes, minutes, List.countP_append, count]
  exact Nat.zero_add _

/-- **A pass that runs out of fuel has told what a pass under a higher limit has told by the end of as
many instructions.** -/
theorem minutes_of_outOfFuel {m : Machine} {c : Controls} {s : σ} {fuel fuel' : UInt32}
    (less : fuel ≤ fuel') (out : OutOfFuel (step h (m.withFuel fuel) c s).result) :
    minutes h (m.withFuel fuel) c s
      = Message.through fuel.toNat (minutes h (m.withFuel fuel') c s) := by
  rw [← (step_transcribed h (m.withFuel fuel) c s []).2] at out
  have spent : (minutes h (m.withFuel fuel) c s).countP isInstruction = fuel.toNat := by
    rw [countP_minutes]
    exact (executions_of_outOfFuel out).1
  obtain ⟨_, _, _, _, _, _, -, -, resumed⟩ := step_resumes less out
  obtain ⟨more, told, next⟩ := resumed.told
  have all : minutes h (m.withFuel fuel') c s = minutes h (m.withFuel fuel) c s ++ more := told
  rw [all, ← spent, Message.through_append _ next]

/-- **Fuel only cuts a pass short.** A pass executes no more instructions than its limit allows. If
it does not run out of fuel, it is the same under every higher limit: it gives the same result, leaves
the same machine but for the limit, the same host and the same minutes. If it does, then it has
completed just as many instructions as it was allowed, over all threads, and leaves what the pass
under the higher limit has got after as many: the same machine but for the limit, and all that has
been told and asked until then. -/
theorem step_fuel (h : Host σ) (m : Machine) (c : Controls) (s : σ) {fuel fuel' : UInt32}
    (less : fuel ≤ fuel') :
    let one := step h (m.withFuel fuel) c s
    let other := step h (m.withFuel fuel') c s
    let es := executions h (m.withFuel fuel) c s
    let es' := executions h (m.withFuel fuel') c s
    es.length ≤ fuel.toNat ∧
      (¬ OutOfFuel one.result →
        other = { one with machine := one.machine.withFuel fuel' } ∧
          minutes h (m.withFuel fuel') c s = minutes h (m.withFuel fuel) c s) ∧
      (OutOfFuel one.result →
        es.length = fuel.toNat ∧ (∀ e ∈ es, e.isCompleted = true) ∧
          one.machine = (machineBefore (es'.drop fuel.toNat) other.machine).withFuel fuel ∧
          minutes h (m.withFuel fuel) c s
            = Message.through fuel.toNat (minutes h (m.withFuel fuel') c s)) := by
  intro one other es es'
  obtain ⟨result, turns, -⟩ := step_turns h (m.withFuel fuel) c s
  refine ⟨turns.length_le, fun enough => ⟨step_refuel less enough, ?_⟩, fun out => ?_⟩
  · rw [← (step_transcribed h (m.withFuel fuel) c s []).2] at enough
    unfold minutes
    rw [step_refuel less enough]
  · obtain ⟨spent, complete⟩ := executions_of_outOfFuel out
    exact ⟨spent, complete, machine_of_outOfFuel less out, minutes_of_outOfFuel less out⟩

/-- Thread 0 shows pages for ever. With fuel for three instructions it is cut short after the third,
and by then it has told what it has told after three instructions with fuel for eight. -/
theorem step_fuel_endless :
    let m := (powerOn .standard 0).install #[0x10, 1, 0x07, 0, 0]
    let short := step Rehearsal.host (m.withFuel 3) .neutral (.start [])
    OutOfFuel short.result ∧
      (executions Rehearsal.host (m.withFuel 3) .neutral (.start [])).length = 3 ∧
      minutes Rehearsal.host (m.withFuel 3) .neutral (.start [])
        = Message.through 3 (minutes Rehearsal.host (m.withFuel 8) .neutral (.start [])) := by
  intro m short
  have out : OutOfFuel short.result := by decide +kernel
  obtain ⟨-, -, cut⟩ := step_fuel Rehearsal.host m .neutral (.start [])
    (show (3 : UInt32) ≤ 8 by decide)
  obtain ⟨spent, -, -, told⟩ := cut out
  exact ⟨out, spent, told⟩

end Machine

end Cinematic
