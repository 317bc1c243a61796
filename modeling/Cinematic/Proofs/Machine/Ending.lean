import Cinematic.Proofs.Bytecode.Extent
import Cinematic.Proofs.Machine.Nesting
import Cinematic.Proofs.Machine.Requests
import Cinematic.Proofs.Machine.Stop

/-!
# How threads end

A thread ends when it executes `kill`, or when a commit grants the request that it end – and,
against all intentions, in a third way. A thread without a place is marked by the offset `0xffff`,
which is an offset like any other, so **a thread that is to go on at `0xffff` has ended instead**. It
has gone astray (`Cinematic.Execution.Strays`): it has branched to this offset, has completed an
instruction that ends just before it, or has returned to where such a call has ended.

There is no fourth way (`Cinematic.Machine.Life.endings`). In a segment of fewer than 65535 bytes
only branches lead astray (`Cinematic.Execution.Strays.branches`), and the other two ways need an
instruction that ends with the last byte of a segment of 65535 bytes.

Apart from this offset threads are treated with care. A thread that yields goes on at the byte after
the `yield`, and a thread that finds no instruction where it goes on, be it within the segment or
outside, makes the pass fail. A thread that has gone astray in one pass makes this pass fail too,
unless it has done so by a `yield`, but no later one: it is passed over from then on
(`Cinematic.Machine.jump_ends_thread`).
-/

namespace Cinematic

open Bytecode

/-! ### Where a thread goes on -/

/-- The place that an instruction can branch to. -/
def Bytecode.Instruction.target? : Instruction → Option UInt16
  | call target | jump target | djnz _ target | cjmp _ _ _ target => some target
  | _ => none

namespace Machine

/-- **Where a thread goes on** after an instruction that is followed by `next`. -/
inductive GoesOn (i : Instruction) (next : Nat) : Nat → Prop
  | onward : GoesOn i next next
  | branch {target : UInt16} (branches : i.target? = some target) : GoesOn i next target.toNat
  | back (address : UInt16) (ret : i = .ret) : GoesOn i next address.toNat
  | nowhere (kill : i = .kill) : GoesOn i next Thread.noPc.toNat

theorem executeCjmp_goesOn {m m' : Machine} {t : Fin threadCount} {pc target : UInt16}
    {cond : Condition} {reg : UInt8} {operand : Comparand} {next resume : Nat}
    (done : m.executeCjmp t pc cond reg operand target next = .ok resume m') :
    GoesOn (.cjmp cond reg operand target) next resume := by
  unfold executeCjmp at done
  split at done
  · cases done
  · cases done
    split
    · exact .branch rfl
    · exact .onward

theorem execute_goesOn {σ : Type} {h : Host σ} {m m' : Machine} {s : σ} {t : Fin threadCount}
    {pc : UInt16} {i : Instruction} {next resume : Nat}
    (done : (execute h m s t pc i next).2 = .ok resume m') : GoesOn i next resume := by
  cases i with
  | call target =>
    obtain ⟨_, -, -, rfl⟩ := executeCall_eq_ok done
    exact .branch rfl
  | ret =>
    obtain ⟨address, _, -, -, rfl⟩ := executeRet_eq_ok done
    exact .back address rfl
  | kill =>
    cases done
    exact .nowhere rfl
  | jump target =>
    cases done
    exact .branch rfl
  | djnz reg target =>
    cases done
    split
    · exact .branch rfl
    · exact .onward
  | cjmp cond reg operand target =>
    simp only [execute] at done
    split at done
    · cases done
      exact .branch rfl
    · exact executeCjmp_goesOn done
  | init index target =>
    obtain ⟨_, -, rfl⟩ := executeInit_eq_ok done
    exact .onward
  | reset first last mode =>
    obtain ⟨-, rfl⟩ := executeReset_eq_ok done
    exact .onward
  | loadres id =>
    simp only [execute] at done
    split at done
    · cases done
      exact .onward
    · cases done
  | invalid code => cases done
  | _ =>
    cases done
    exact .onward

end Machine

namespace Thread

theorem status_eq_halted_iff {t : Thread} : t.status = .halted ↔ t.pc = noPc := by
  by_cases none : t.pc = noPc <;> by_cases paused : t.activity = .paused <;>
    simp [status, none, paused]

/-- **A commit ends only a thread that was asked to end.** -/
theorem requestedPc_of_commit {t : Thread} (alive : t.pc ≠ noPc) (ended : t.commit.pc = noPc) :
    t.requestedPc = haltRequest := by
  change (if t.requestedPc = noPc then t.pc
    else if t.requestedPc = haltRequest then noPc else t.requestedPc) = noPc at ended
  split at ended
  · exact absurd ended alive
  · next asked =>
    split at ended
    · next halt => exact halt
    · exact absurd ended asked

end Thread

/-- Two requests are noted by the word that asks for the end. -/
theorem PlaceRequest.eq_of_word {r : PlaceRequest} (halt : r.word = Thread.haltRequest) :
    r = .halt ∨ r = .start 0xfffe := by
  cases r with
  | halt => exact Or.inl rfl
  | start target => exact Or.inr (congrArg start halt)

namespace Execution

variable {e : Execution} {past : List Execution}

theorem goesOn {m : Machine} {resume : Nat} (done : e.outcome = .ok resume m) :
    Machine.GoesOn e.instruction e.next resume := by
  obtain ⟨σ, h, s, gives⟩ := e.executed
  exact Machine.execute_goesOn (gives.trans done)

/-- **The instruction lies within the segment.** -/
theorem extent (e : Execution) : e.pos < e.next ∧ e.next ≤ e.before.segment.size := by
  obtain ⟨c, read, position⟩ := e.decoded
  rw [← position]
  exact (Instruction.decode_extent read).2

/-- A thread that yields goes on at the next byte. -/
theorem outcome_of_yield (yields : e.instruction = .yield) :
    ∃ m, e.outcome = .ok (e.pos + 1) m := by
  obtain ⟨c, read, position⟩ := e.decoded
  have next : c.pos = e.pos + 1 := Instruction.decode_pos_of_yields read (by rw [yields]; rfl)
  obtain ⟨σ, h, s, gives⟩ := e.executed
  rw [yields, ← position, next] at gives
  exact ⟨e.before, gives.symm⟩

theorem after_segment (e : Execution) : e.after.segment = e.before.segment := by
  rw [e.after_kept]

/-! ### Astray -/

/-- **The ways to the offset that is no place**, after the executions `past`. -/
inductive Strays (past : List Execution) (e : Execution) : Prop
  /-- The instruction branches there. -/
  | branch (branches : e.instruction.target? = some Thread.noPc)
  /-- The instruction ends just before it. -/
  | onward (ends : e.returnOffset = Thread.noPc)
  /-- The instruction returns to a call that ends just before it. -/
  | back {call : Execution} (ret : e.isRet = true) (matching : Matching past call)
    (ends : call.returnOffset = Thread.noPc)

/-- **An execution ends a thread by `kill` or by going astray**, and no thread but its own. -/
theorem ends {j : Fin threadCount} (holds : Holds e.before.stack past)
    (alive : (e.before.thread j).pc ≠ Thread.noPc) (ended : (e.after.thread j).pc = Thread.noPc) :
    e.thread = j ∧ e.isCompleted = true ∧ (e.instruction = .kill ∨ Strays past e) := by
  have own : e.thread = j := by
    by_contra other
    exact alive ((e.after_pc_of_ne (Ne.symm other)).symm.trans ended)
  subst own
  rcases e.fails_or_ok with ⟨x, fails⟩ | ⟨resume, m, result⟩
  · rw [fails.after] at ended
    exact absurd ended alive
  · have astray : resume.toUInt16 = Thread.noPc := (after_pc_self result).symm.trans ended
    have goesOn := e.goesOn result
    refine ⟨rfl, isCompleted_of_ok result, ?_⟩
    cases goesOn with
    | onward => exact Or.inr (.onward astray)
    | branch branches =>
      have target := UInt16.ofNat_toNat.symm.trans astray
      exact Or.inr (.branch (branches.trans (congrArg some target)))
    | back address ret =>
      obtain ⟨call, matching, returns, -⟩ := holds.resume (isRet_iff.2 ret) result
      rw [returns] at astray
      exact Or.inr (.back (isRet_iff.2 ret) matching (UInt16.ofNat_toNat.symm.trans astray))
    | nowhere kill => exact Or.inl kill

theorem returnOffset_ne_noPc (small : e.before.segment.size < 65535) :
    e.returnOffset ≠ Thread.noPc := by
  intro ends
  have extent := e.extent.2
  have last := congrArg UInt16.toNat ends
  change e.next.toUInt16.toNat = 65535 at last
  rw [UInt16.toNat_ofNat', Nat.mod_eq_of_lt (by omega)] at last
  omega

/-- **In a segment of fewer than 65535 bytes only branches lead astray.** -/
theorem Strays.branches (strays : Strays past e) (small : e.before.segment.size < 65535)
    (same : ∀ e' ∈ past, e'.before.segment = e.before.segment) :
    e.instruction.target? = some Thread.noPc := by
  cases strays with
  | branch branches => exact branches
  | onward ends => exact absurd ends (returnOffset_ne_noPc small)
  | @back call _ matching ends =>
    obtain ⟨earlier, inner, rfl, -⟩ := matching
    have here : call.before.segment = e.before.segment := same call (by simp)
    exact absurd ends (returnOffset_ne_noPc (here ▸ small))

end Execution

namespace Machine

open Execution

/-! ### Courses and lives -/

section

variable {m m' : Machine} {es : List Execution}

/-- All executions of a course find the same segment. -/
theorem Course.segment (course : Course m es m') : ∀ e ∈ es, e.before.segment = m.segment := by
  induction course with
  | nil =>
    intro e member
    cases member
  | cons _ ih =>
    intro e member
    rcases List.mem_cons.1 member with rfl | later
    · rfl
    · rw [ih e later, after_segment]

/-- **What holds at the end of a course and did not at its beginning has come about by one of its
executions.** -/
theorem Course.exists_change (course : Course m es m') {P : Machine → Prop} (before : ¬ P m)
    (after : P m') : ∃ past e rest, es = past ++ e :: rest ∧ ¬ P e.before ∧ P e.after := by
  induction course with
  | nil => exact absurd after before
  | @cons e es _ _ ih =>
    by_cases now : P e.after
    · exact ⟨[], e, es, rfl, before, now⟩
    · obtain ⟨past, e', rest, rfl, before', after'⟩ := ih now after
      exact ⟨e :: past, e', rest, rfl, before', after'⟩

variable {config : MachineConfig} {seed : UInt16}

theorem requestedPc_of_initialThreads (initial : m.threads = initialThreads)
    (j : Fin threadCount) : (m.thread j).requestedPc = Thread.noPc := by
  unfold thread
  rw [initial]
  revert j
  decide

/-- After a pass the request that it has made last is pending, if it has made one. -/
theorem step_requestedPc {σ : Type} (h : Host σ) (m : Machine) (c : Controls) (s : σ)
    (j : Fin threadCount) : ((step h m c s).machine.thread j).requestedPc
      = ((lastPlace? j (executions h m c s)).map PlaceRequest.word).getD Thread.noPc := by
  have fresh : ((m.commit c).thread j).requestedPc = Thread.noPc := by
    rw [commit_thread]
    rfl
  rw [(step_course h m c s).requestedPc j, fresh]

/-- **A request that is pending is the last one that was made.** -/
theorem Life.requestedPc (life : Life config seed m es) {j : Fin threadCount}
    (pending : (m.thread j).requestedPc ≠ Thread.noPc) :
    ∃ r, lastPlace? j es = some r ∧ r.word = (m.thread j).requestedPc := by
  induction life with
  | powerOn | install | enterPart => exact absurd (requestedPc_of_initialThreads rfl j) pending
  | setRegister _ _ _ ih | pace _ _ ih => exact ih pending
  | @step m es _ σ h c s ih =>
    have noted := step_requestedPc h m c s j
    cases last : lastPlace? j (executions h m c s) with
    | none =>
      rw [last] at noted
      exact absurd noted pending
    | some r =>
      rw [last] at noted
      refine ⟨r, ?_, noted.symm⟩
      rw [lastPlace?, completed_append, List.filterMap_append, List.getLast?_append]
      rw [lastPlace?] at last
      rw [last]
      rfl

/-- The segment is the same in all executions since it was installed. -/
theorem Life.segment (life : Life config seed m es) :
    ∀ e ∈ es, e.before.segment = m.segment := by
  induction life with
  | powerOn | install | enterPart =>
    intro e member
    cases member
  | setRegister _ _ _ ih | pace _ _ ih => exact ih
  | step _ h c s ih =>
    intro e member
    rw [step_kept]
    rcases List.mem_append.1 member with earlier | now
    · exact ih e earlier
    · exact (step_course h _ c s).segment e now

end

/-! ### Where there is no instruction -/

/-- **It has been reported that a thread found no instruction** at a position, or no fuel to look
for one. -/
def Reported {α : Type} (result : Except RuntimeError α) (t : Fin threadCount) (pos : Nat)
    (x : ReadError) : Prop :=
  result = .error (.bytecode t x) ∨ result = .error (.fuelExhausted t pos.toUInt16)

theorem Reported.map {α β : Type} {result : Except RuntimeError α} {t : Fin threadCount} {pos : Nat}
    {x : ReadError} (reported : Reported result t pos x) (f : α → β) :
    Reported (result.map f) t pos x := by
  rcases reported with rfl | rfl
  · exact Or.inl rfl
  · exact Or.inr rfl

section

variable {σ : Type} {h : Host σ} {t j : Fin threadCount} {ts : List (Fin threadCount)} {fuel : Nat}
  {m : Machine} {s : σ} {pos : Nat} {es : List Execution} {ran : Ran σ} {x : ReadError}
  {cursor : Cursor}

/-- A slice that begins where there is no instruction fails at once. -/
theorem Slice.reports_start (slice : Slice h t fuel m s pos es ran)
    (unread : Instruction.decode ⟨m.segment, pos⟩ = .error x cursor) :
    Reported ran.result t pos x := by
  have absurd {e : Execution} {s' : σ} (here : e.IsAt h t m s pos s') : False := by
    obtain ⟨c, read, -⟩ := e.decoded
    rw [here.before, here.position, unread] at read
    cases read
  cases slice with
  | exhausted => exact Or.inr rfl
  | unread read =>
    cases unread.symm.trans read
    exact Or.inl rfl
  | failed here | yields here | continues here => exact (absurd here).elim

/-- **A slice that goes on where there is no instruction fails.** -/
theorem Slice.reports (slice : Slice h t fuel m s pos es ran) {e : Execution} (member : e ∈ es)
    {m' : Machine} {resume : Nat} (done : e.outcome = .ok resume m')
    (more : e.instruction.yields = false)
    (unread : Instruction.decode ⟨m.segment, resume⟩ = .error x cursor) :
    Reported ran.result t resume x := by
  induction slice with
  | exhausted | unread => cases member
  | failed here fails =>
    obtain rfl := List.mem_singleton.1 member
    exact absurd fails (Execution.not_fails_of_ok done)
  | yields here _ last =>
    obtain rfl := List.mem_singleton.1 member
    cases more.symm.trans last
  | continues here done' _ rest ih =>
    rw [← here.before, ← after_segment] at unread
    rcases List.mem_cons.1 member with rfl | later
    · cases done'.symm.trans done
      exact rest.reports_start unread
    · exact ih later unread

/-- **The execution that ends a slice is the last of its slice.** -/
theorem Slice.machine_of_yields (slice : Slice h t fuel m s pos es ran) {e : Execution}
    (member : e ∈ es) (yields : e.instruction.yields = true) : ran.machine = e.after := by
  induction slice with
  | exhausted | unread => cases member
  | failed | yields => rw [List.mem_singleton.1 member]
  | continues _ _ more _ ih =>
    rcases List.mem_cons.1 member with rfl | later
    · cases more.symm.trans yields
    · exact ih later

theorem Slice.segment (slice : Slice h t fuel m s pos es ran) :
    ran.machine.segment = m.segment := by
  rw [slice.course.kept]

theorem Turns.reports (turns : Turns h ts fuel m s es ran) {e : Execution} (member : e ∈ es)
    {m' : Machine} {resume : Nat} (done : e.outcome = .ok resume m')
    (more : e.instruction.yields = false)
    (unread : Instruction.decode ⟨m.segment, resume⟩ = .error x cursor) :
    Reported ran.result e.thread resume x := by
  induction turns with
  | done => cases member
  | skips _ _ ih => exact ih member unread
  | fails _ slice =>
    rw [slice.thread e member]
    exact slice.reports member done more unread
  | serves _ slice _ ih =>
    rcases List.mem_append.1 member with now | later
    · rcases slice.reports now done more unread with reported | reported <;> cases reported
    · refine ih later ?_
      rw [slice.segment]
      exact unread

/-- **A thread that stands where there is no instruction makes the pass fail**, unless the pass has
failed before, on account of another thread. -/
theorem Turns.reports_start (turns : Turns h ts fuel m s es ran) (member : j ∈ ts)
    (due : (m.thread j).isRunnable = true)
    (unread : Instruction.decode ⟨m.segment, (m.thread j).pc.toNat⟩ = .error x cursor) :
    Reported ran.result j (m.thread j).pc.toNat x ∨ ∃ y, ran.result = .error y ∧ j ∉ y.thread? := by
  induction turns with
  | done => cases member
  | skips idle _ ih =>
    rcases List.mem_cons.1 member with rfl | later
    · cases due.symm.trans idle
    · exact ih later due unread
  | @fails t _ _ _ _ _ _ _ y _ slice =>
    by_cases here : j = t
    · subst here
      exact Or.inl (slice.reports_start unread)
    · -- the thread that has failed is the only one that the error can name
      obtain ⟨_, stop, -⟩ := slice.stops UInt16.ofNat_toNat.symm rfl
      exact Or.inr ⟨y, rfl, fun named => here (stop.named.2 j named)⟩
  | @serves t _ _ _ _ _ _ _ _ _ _ _ slice _ ih =>
    by_cases here : j = t
    · subst here
      rcases slice.reports_start unread with reported | reported <;> cases reported
    · have later : j ∈ _ := (List.mem_cons.1 member).resolve_left here
      have place := slice.pc_of_ne here
      dsimp only at place
      rw [← place]
      refine ih later ((slice.isRunnable_of_ne here).trans due) ?_
      rw [place, slice.segment]
      exact unread

/-- **A thread whose slice has ended stays where it is**, for the rest of the pass. -/
theorem Turns.pc_of_yields (turns : Turns h ts fuel m s es ran) (nodup : ts.Nodup) {e : Execution}
    (member : e ∈ es) (yields : e.instruction.yields = true) :
    (ran.machine.thread e.thread).pc = (e.after.thread e.thread).pc := by
  induction turns with
  | done => cases member
  | skips _ _ ih => exact ih nodup.of_cons member
  | fails _ slice => rw [slice.machine_of_yields member yields]
  | serves _ slice others ih =>
    obtain ⟨fresh, nodup⟩ := List.nodup_cons.1 nodup
    rcases List.mem_append.1 member with now | later
    · have left := slice.machine_of_yields now yields
      dsimp only at left
      rw [← left]
      refine others.pc_of_not_mem ?_
      rw [slice.thread e now]
      exact fresh
    · exact ih nodup later

end

/-! ### Passes -/

section

variable {σ : Type} {h : Host σ} {j : Fin threadCount} {m : Machine} {c : Controls} {s : σ}
  {x : ReadError} {cursor : Cursor} {pos : Nat}

/-- **A pass that finds no instruction fails.** -/
theorem step_reports (unread : Instruction.decode ⟨m.segment, pos⟩ = .error x cursor) :
    (∀ e ∈ executions h m c s, ∀ m', e.outcome = .ok pos m' → ¬ e.instruction.EndsSlice →
      Reported (step h m c s).result e.thread pos x) ∧
    (((m.commit c).thread j).isRunnable = true → ((m.commit c).thread j).pc.toNat = pos →
      Reported (step h m c s).result j pos x ∨
        ∃ y, (step h m c s).result = .error y ∧ j ∉ y.thread?) := by
  obtain ⟨result, turns, same⟩ := step_turns h m c s
  rw [same]
  constructor
  · intro e member m' done going
    rw [endsSlice_iff, Bool.not_eq_true] at going
    exact (turns.reports member done going unread).map _
  · rintro due rfl
    rcases turns.reports_start (List.mem_finRange j) due unread with reported | ⟨y, failed, other⟩
    · exact Or.inl (reported.map _)
    · refine Or.inr ⟨y, ?_, other⟩
      dsimp only at failed
      rw [failed]
      rfl

/-- **A thread that yields goes on at the next byte**, and stays there until a commit grants it
another place. If the next byte would be the one at the offset that is no place, the thread has
ended. -/
theorem step_yield (small : m.segment.size ≤ 65535) {e : Execution}
    (member : e ∈ executions h m c s) (yields : e.instruction = .yield) :
    let final := (step h m c s).machine
    (final.thread e.thread).pc.toNat = e.pos + 1 ∧
      ((final.thread e.thread).status = .halted ↔ e.pos = 65534) ∧
      (lastPlace? e.thread (executions h m c s) = none →
        ∀ later : Machine, later.threads = final.threads →
          ∀ c', ((later.commit c').thread e.thread).pc.toNat = e.pos + 1) := by
  intro final
  obtain ⟨_, turns, -⟩ := step_turns h m c s
  obtain ⟨_, done⟩ := e.outcome_of_yield yields
  have stays := turns.pc_of_yields (List.nodup_finRange threadCount) member (by rw [yields]; rfl)
  have stands : (final.thread e.thread).pc = (e.pos + 1).toUInt16 := stays.trans (after_pc_self done)
  -- the byte after the `yield` has an offset of sixteen bits
  have fits : (e.pos + 1).toUInt16.toNat = e.pos + 1 := by
    have extent := e.extent
    rw [(step_course h m c s).segment e member] at extent
    change e.pos < e.next ∧ e.next ≤ m.segment.size at extent
    rw [UInt16.toNat_ofNat']
    exact Nat.mod_eq_of_lt (by omega)
  refine ⟨stands ▸ fits, ?_, ?_⟩
  · rw [Thread.status_eq_halted_iff, stands, ← UInt16.toNat_inj, fits]
    change e.pos + 1 = 65535 ↔ e.pos = 65534
    omega
  · intro unasked later kept c'
    have same : later.thread e.thread = final.thread e.thread := by
      unfold thread
      rw [kept]
    have noted := step_requestedPc h m c s e.thread
    rw [unasked] at noted
    rw [commit_thread, same, Thread.commit_pc_of_noted none noted]
    exact stands ▸ fits

end

variable {config : MachineConfig} {seed : UInt16} {m : Machine} {es : List Execution}

/-- **A commit ends only threads that were asked to end.** -/
theorem Life.commit_ends (life : Life config seed m es) (c : Controls) {j : Fin threadCount}
    (alive : (m.thread j).status ≠ .halted) (ended : ((m.commit c).thread j).status = .halted) :
    (m.thread j).requestedPc = Thread.haltRequest ∧
      (lastPlace? j es = some .halt ∨ lastPlace? j es = some (.start 0xfffe)) := by
  rw [ne_eq, Thread.status_eq_halted_iff] at alive
  rw [Thread.status_eq_halted_iff, commit_thread] at ended
  have halt := Thread.requestedPc_of_commit alive ended
  obtain ⟨r, last, word⟩ := life.requestedPc (j := j) (by rw [halt]; decide)
  rw [last]
  refine ⟨halt, ?_⟩
  rcases PlaceRequest.eq_of_word (word.trans halt) with rfl | rfl
  · exact Or.inl rfl
  · exact Or.inr rfl

/-- **The instructions of a pass end only threads that kill themselves or go astray**, the latter by
a branch unless the segment is long. -/
theorem Life.step_ends (life : Life config seed m es) {σ : Type} (h : Host σ) (c : Controls)
    (s : σ) {j : Fin threadCount} (alive : ((m.commit c).thread j).status ≠ .halted)
    (ended : ((Machine.step h m c s).machine.thread j).status = .halted) :
    ∃ past e rest, executions h m c s = past ++ e :: rest ∧ e.thread = j ∧
      e.isCompleted = true ∧ (e.instruction = .kill ∨ Strays (completed (es ++ past)) e ∧
        (m.segment.size < 65535 → e.instruction.target? = some 0xffff)) := by
  obtain ⟨past, e, rest, split, before, after⟩ := (step_course h m c s).exists_change
    (P := fun m => (m.thread j).status = .halted) alive ended
  rw [Thread.status_eq_halted_iff] at before after
  have moment : es ++ executions h m c s = (es ++ past) ++ e :: rest := by
    rw [split, List.append_assoc]
  obtain ⟨own, done, how⟩ := e.ends ((life.step h c s).holds moment) before after
  refine ⟨past, e, rest, split, own, done, how.imp_right fun strays => ⟨strays, fun small => ?_⟩⟩
  -- all executions up to this one have found the same segment
  have segment := (life.step h c s).segment
  rw [moment, step_kept] at segment
  have here : e.before.segment = m.segment := segment e (by simp)
  refine strays.branches (here ▸ small) fun e' member => ?_
  rw [here]
  exact segment e' (List.mem_append_left _ (List.mem_filter.1 member).1)

/-- **How threads end.** In a pass of a machine that has come about in any way, with a segment of at
most 65535 bytes, a thread is ended by the commit only if it was last asked to end, and by the
instructions only if it completes a `kill` itself or goes astray, for which a segment of fewer bytes
needs a branch to `0xffff`. A thread that yields goes on at the next byte, in the next pass too
unless it is asked for something else, and has ended only if this byte would be the one at `0xffff`.
Where there is no instruction, and there is none outside of the segment, no thread goes on and none
begins its slice without the pass failing. -/
theorem Life.endings (life : Life config seed m es) (small : m.segment.size ≤ 65535) {σ : Type}
    (h : Host σ) (c : Controls) (s : σ) (j : Fin threadCount) :
    let now := executions h m c s
    let final := (Machine.step h m c s).machine
    let result := (Machine.step h m c s).result
    ((m.thread j).status ≠ .halted → ((m.commit c).thread j).status = .halted →
      (m.thread j).requestedPc = Thread.haltRequest ∧
        (lastPlace? j es = some .halt ∨ lastPlace? j es = some (.start 0xfffe))) ∧
    (((m.commit c).thread j).status ≠ .halted → (final.thread j).status = .halted →
      ∃ past e rest, now = past ++ e :: rest ∧ e.thread = j ∧ e.isCompleted = true ∧
        (e.instruction = .kill ∨ Strays (completed (es ++ past)) e ∧
          (m.segment.size < 65535 → e.instruction.target? = some 0xffff))) ∧
    (∀ e ∈ now, e.thread = j → e.instruction = .yield →
      (final.thread j).pc.toNat = e.pos + 1 ∧
      ((final.thread j).status = .halted ↔ e.pos = 65534) ∧
      (lastPlace? j now = none → ∀ later : Machine, later.threads = final.threads →
        ∀ c', ((later.commit c').thread j).pc.toNat = e.pos + 1)) ∧
    (∀ pos x cursor, Instruction.decode ⟨m.segment, pos⟩ = .error x cursor →
      (∀ e ∈ now, ∀ m', e.outcome = .ok pos m' → ¬ e.instruction.EndsSlice →
        Reported result e.thread pos x) ∧
      (((m.commit c).thread j).isRunnable = true → ((m.commit c).thread j).pc.toNat = pos →
        Reported result j pos x ∨ ∃ y, result = .error y ∧ j ∉ y.thread?)) ∧
    ∀ pos, m.segment.size ≤ pos → Instruction.decode ⟨m.segment, pos⟩
      = .error ⟨pos.toUInt16, 1, m.segment.size⟩ ⟨m.segment, pos⟩ := by
  intro now final result
  refine ⟨life.commit_ends c, life.step_ends h c s, ?_, ?_, ?_⟩
  · rintro e member rfl yields
    exact step_yield small member yields
  · exact fun pos x cursor unread => step_reports unread
  · exact fun pos outside => Instruction.decode_of_le outside

/-- Thread 0 yields in a first pass and kills itself in a second one. -/
theorem endings_kill :
    let start := (powerOn .standard 0).install #[0x06, 0x11]
    let first := step Rehearsal.host start .neutral (.start [])
    let second := step Rehearsal.host first.machine .neutral first.host
    let zero : Fin threadCount := ⟨0, by decide⟩
    (first.machine.thread zero).pc.toNat = 1 ∧ (first.machine.thread zero).status = .runnable ∧
      (second.machine.thread zero).status = .halted ∧
      ∃ e ∈ executions Rehearsal.host first.machine .neutral first.host, e.thread = zero ∧
        (e.instruction = .kill ∨ e.instruction.target? = some 0xffff) := by
  intro start first second zero
  have fresh : Life .standard 0 start [] := Life.powerOn.install _
  have yields : ∃ e ∈ executions Rehearsal.host start .neutral (.start []),
      e.thread = zero ∧ e.instruction = .yield ∧ e.pos = 0 := by
    decide +kernel
  have runs : (first.machine.thread zero).status = .runnable ∧
      ((first.machine.commit .neutral).thread zero).status ≠ .halted ∧
      (second.machine.thread zero).status = .halted ∧ first.machine.segment.size = 2 := by
    decide +kernel
  obtain ⟨e, member, own, yield, begins⟩ := yields
  obtain ⟨runnable, alive, ended, size⟩ := runs
  obtain ⟨-, -, stands, -⟩ := fresh.endings (by decide) Rehearsal.host .neutral (.start []) zero
  obtain ⟨-, ends, -⟩ := (fresh.step Rehearsal.host .neutral (.start [])).endings
    (size.trans_le (by decide)) Rehearsal.host .neutral first.host zero
  obtain ⟨past, e', rest, split, own', -, how⟩ := ends alive ended
  refine ⟨?_, runnable, ended, e', split ▸ by simp, own', how.imp_right fun strays => ?_⟩
  · rw [(stands e member own yield).1, begins]
  · exact strays.2 (size.trans_lt (by decide))

/-- **A branch to the last offset ends the thread.** The pass that branches there fails, because there
is no instruction, but the next one knows nothing of it. -/
theorem jump_ends_thread :
    let start := (powerOn .standard 0).install #[0x07, 0xff, 0xff]
    let first := step Rehearsal.host start .neutral (.start [])
    let second := step Rehearsal.host first.machine .neutral first.host
    let zero : Fin threadCount := ⟨0, by decide⟩
    (start.thread zero).status = .runnable ∧
      (executions Rehearsal.host start .neutral (.start [])).map (·.instruction)
        = [.jump 0xffff] ∧
      first.result = .error (.bytecode zero ⟨0xffff, 1, 3⟩) ∧
      (first.machine.thread zero).status = .halted ∧ second.result = .ok () := by
  decide +kernel

end Machine

end Cinematic
