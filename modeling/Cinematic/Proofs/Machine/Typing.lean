import Cinematic.Proofs.Machine.Deadlines

/-!
# What has been typed

The controls hold one character, and whoever plays the game may write another one over it at any
time between two calls. What has to be arranged is that **a character that is left alone reaches one
pass and no other** (`Cinematic.Machine.Visit.typed_seen_once`): it may have to wait, because no pass is
due or the game is stopped, and the pass that takes it may fail.

A pass takes the character away before anything else happens, and writes it, or zero, into the
register of the key. So it makes no difference what the register held before, be it the character of
an earlier pass or a word that bytecode has left there, and no difference how the pass ends. All that
has to be followed from call to call is the character in the controls
(`Cinematic.Machine.Visit.typed_left`), and no call looks at it unless it begins a pass.
-/

namespace Cinematic

/-- **The typed character is in the register of the key** as soon as the controls have been written
there, and zero if there is none. -/
theorem Controls.get_inputKey_writeTo (c : Controls) (r : RegisterFile) :
    (c.writeTo r).get Register.inputKey = c.typed.toUInt16 := by
  -- six other registers are written after it
  rw [writeTo, RegisterFile.get_set_of_ne _ (by decide), RegisterFile.setSigned,
    RegisterFile.get_set_of_ne _ (by decide), RegisterFile.get_set_of_ne _ (by decide),
    RegisterFile.setSigned, RegisterFile.get_set_of_ne _ (by decide), RegisterFile.setSigned,
    RegisterFile.get_set_of_ne _ (by decide), RegisterFile.setSigned,
    RegisterFile.get_set_of_ne _ (by decide), RegisterFile.get_set_self]

namespace Machine

/-- The first instruction of a pass finds the machine just after the commit. -/
theorem before_head_executions {σ : Type} (h : Host σ) (m : Machine) (c : Controls) (s : σ) :
    ∀ e ∈ (executions h m c s).head?, e.before = m.commit c := by
  intro e first
  have begins := (step_course h m c s).machineBefore_eq
  obtain ⟨rest, shape⟩ := List.head?_eq_some_iff.1 first
  rw [shape] at begins
  exact begins

/-! ### Visits -/

/-- **A call of a machine**, whether for a pass or only for one that is due. -/
structure Visit (σ : Type) extends Call σ where
  /-- Whether the pass is to run only if it is due. -/
  paced : Bool

namespace Visit

variable {σ : Type} (h : Host σ)

/-- What the visit leaves behind. -/
def left (x : Visit σ) : Stepped σ Bool :=
  if x.paced then x.toCall.ran h
  else
    match step h x.machine x.controls x.host with
    | ⟨m, c, s, result⟩ => ⟨m, c, s, result.map fun _ => true⟩

/-- **A pass has begun** in the visit. -/
def Begins (x : Visit σ) : Prop := (x.left h).machine.passes = x.machine.passes + 1

/-- The pacer of the machine when the pass begins, which may have been asked whether it is due. -/
def pacer (x : Visit σ) : Pacer :=
  if x.paced then (x.machine.pacer.isReady (h.ticks x.host) x.controls.idle).2 else x.machine.pacer

/-- The machine when the pass begins. -/
def entered (x : Visit σ) : Machine := { x.machine with pacer := x.pacer h }

instance (x : Visit σ) : Decidable (x.Begins h) :=
  inferInstanceAs (Decidable (_ = x.machine.passes + 1))

/-- The executions of the pass, if one has begun. -/
def executions (x : Visit σ) : List Execution :=
  if x.Begins h then Machine.executions h (x.entered h) x.controls x.host else []

/-- **The first instruction of the pass finds a character** in the register of the key. -/
def Sees (x : Visit σ) (key : UInt8) : Prop :=
  ∀ e ∈ (x.executions h).head?, e.before.registers.get Register.inputKey = key.toUInt16

/-- Nobody has written the character between two visits. -/
def Untouched (x y : Visit σ) : Prop := y.controls.typed = (x.left h).controls.typed

variable {h} {x y : Visit σ}

/-- **What a visit can do.** Either no pass begins, and nothing has changed but the pacer; or one
begins, and the character has been taken away, however the pass ends. -/
inductive Visited (h : Host σ) (x : Visit σ) : Prop
  | rests (paced : x.paced = true)
    (soon : x.controls.idle = true ∨ ¬ x.machine.nextDeadline ≤ h.ticks x.host)
    (left : x.left h = ⟨x.entered h, x.controls, x.host, .ok false⟩)
  | begins (due : x.paced = true →
      x.controls.idle = false ∧ x.machine.nextDeadline ≤ h.ticks x.host)
    (passes : (x.left h).machine.passes = x.machine.passes + 1)
    (taken : (x.left h).controls = x.controls.seen) (ran : (x.left h).result ≠ .ok false)

theorem visited (h : Host σ) (x : Visit σ) : Visited h x := by
  have kept := congrArg Machine.passes (step_kept h (x.entered h) x.controls x.host)
  rcases paced : x.paced with _ | _
  · -- a call for a pass
    have entered : x.entered h = x.machine := by rw [Visit.entered, pacer, paced]; rfl
    rw [entered] at kept
    refine .begins (fun due => absurd (paced.symm.trans due) Bool.false_ne_true) ?_ ?_ ?_ <;>
      rw [left, paced, if_neg Bool.false_ne_true]
    · exact kept
    · rfl
    · dsimp only
      cases (step h x.machine x.controls x.host).result with
      | error e => rintro ⟨⟩
      | ok done => rintro ⟨⟩
  · have ran : x.left h = run h x.machine x.controls x.host := by rw [left, paced]; rfl
    have pacer : x.pacer h = (x.machine.pacer.isReady (h.ticks x.host) x.controls.idle).2 := by
      rw [Visit.pacer, paced]
      rfl
    rw [Visit.entered, pacer] at kept
    obtain ⟨idle, answer⟩ | ⟨awake, due, answer⟩ | ⟨awake, wait, answer⟩ :=
      x.machine.pacer.isReady_cases (h.ticks x.host) x.controls.idle
    · refine .rests paced (.inl idle) ?_
      rw [ran, run, Visit.entered, pacer, answer]
    · rw [answer] at kept
      refine .begins (fun _ => ⟨awake, due⟩) ?_ ?_ ?_ <;> rw [ran, run, answer] <;> dsimp only
      all_goals
        generalize taken : step h { x.machine with pacer := _ } x.controls x.host = stepped at kept ⊢
        obtain ⟨m, c, s, e | done⟩ := stepped
      · exact kept
      · exact kept
      · exact congrArg Stepped.controls taken.symm
      · exact congrArg Stepped.controls taken.symm
      · rintro ⟨⟩
      · rintro ⟨⟩
    · refine .rests paced (.inr wait) ?_
      rw [ran, run, Visit.entered, pacer, answer]

/-- **When a pass begins**: whenever one is asked for, or when one is due and the game is not
stopped. -/
theorem begins_iff : x.Begins h ↔
    (x.paced = true → x.controls.idle = false ∧ x.machine.nextDeadline ≤ h.ticks x.host) := by
  rcases visited h x with ⟨paced, soon, left⟩ | ⟨due, passes, -, -⟩
  · refine ⟨fun begins => ?_, fun due => ?_⟩
    · rw [Begins, left] at begins
      exact absurd begins (Nat.ne_of_lt (Nat.lt_succ_self _))
    · obtain ⟨awake, late⟩ := due paced
      rcases soon with idle | early
      · cases awake.symm.trans idle
      · exact absurd late early
  · exact ⟨fun _ => due, fun _ => passes⟩

theorem left_of_not_begins (rests : ¬ x.Begins h) :
    x.left h = ⟨x.entered h, x.controls, x.host, .ok false⟩ := by
  rcases visited h x with ⟨-, -, left⟩ | ⟨-, passes, -, -⟩
  · exact left
  · exact absurd passes rests

theorem of_begins (begins : x.Begins h) :
    (x.left h).controls = x.controls.seen ∧ (x.left h).result ≠ .ok false := by
  rcases visited h x with ⟨-, -, left⟩ | ⟨-, -, taken, ran⟩
  · rw [Begins, left] at begins
    exact absurd begins (Nat.ne_of_lt (Nat.lt_succ_self _))
  · exact ⟨taken, ran⟩

/-- **A pass sees the character in the controls**, or zero if there is none. -/
theorem sees (begins : x.Begins h) : x.Sees h x.controls.typed := by
  intro e first
  rw [executions, if_pos begins] at first
  rw [before_head_executions h _ _ _ e first]
  exact x.controls.get_inputKey_writeTo _

/-! ### One visit after the other -/

/-- A pass takes the character away, and a visit without a pass leaves it where it is. -/
theorem typed_left (x : Visit σ) : (x.Begins h → (x.left h).controls.typed = 0) ∧
    (¬ x.Begins h → (x.left h).controls.typed = x.controls.typed) :=
  ⟨fun begins => congrArg Controls.typed (of_begins begins).1, fun rests => by
    rw [left_of_not_begins rests]⟩

/-- **A character that nobody writes over waits for the next pass**, and is gone after it. -/
theorem typed_of_chain {between : List (Visit σ)}
    (untouched : (x :: between ++ [y]).IsChain (Untouched h)) :
    ((∀ z ∈ x :: between, ¬ z.Begins h) → y.controls.typed = x.controls.typed) ∧
      ((∃ z ∈ x :: between, z.Begins h) → y.controls.typed = 0) := by
  induction between generalizing x with
  | nil =>
    have next : Untouched h x y := (List.isChain_cons_cons.1 untouched).1
    rw [next]
    refine ⟨fun rests => x.typed_left.2 (rests x List.mem_cons_self), fun ⟨z, member, begins⟩ => ?_⟩
    cases List.mem_singleton.1 member
    exact x.typed_left.1 begins
  | cons w between ih =>
    obtain ⟨next, untouched⟩ := List.isChain_cons_cons.1 untouched
    obtain ⟨waits, gone⟩ := ih untouched
    refine ⟨fun rests => ?_, fun ⟨z, member, begins⟩ => ?_⟩
    · rw [waits fun z member => rests z (List.mem_cons_of_mem _ member), next]
      exact x.typed_left.2 (rests x List.mem_cons_self)
    · by_cases later : ∃ z ∈ w :: between, z.Begins h
      · exact gone later
      · -- the pass was that of the first visit, which has left no character
        have rests : ∀ z ∈ w :: between, ¬ z.Begins h := fun z member begins =>
          later ⟨z, member, begins⟩
        rcases List.mem_cons.1 member with rfl | among
        · rw [waits rests, next]
          exact z.typed_left.1 begins
        · exact absurd begins (rests z among)

/-- **A character that is typed is seen by one pass.** In any call of a machine, paced or not, a pass
begins if it is asked for without a pacer, or if it is due and the game is not stopped. It finds the
character of the controls in the register of the key when its first instruction is executed, or zero
if there is none, and takes it away, whether it succeeds or fails. A call in which no pass begins says
so, and leaves the controls and the registers as they are.

So in any calls, one after the other, a character that nobody writes over is seen by the first pass that
begins, however many calls come before it, and after this pass no other one sees it, whatever is done
to the machine meanwhile. -/
theorem typed_seen_once (h : Host σ) :
    (∀ x : Visit σ,
        (x.Begins h ↔
          (x.paced = true → x.controls.idle = false ∧ x.machine.nextDeadline ≤ h.ticks x.host)) ∧
        (x.Begins h → x.Sees h x.controls.typed ∧ (x.left h).controls.typed = 0) ∧
        ((x.left h).result = .ok false ↔ ¬ x.Begins h) ∧
        (¬ x.Begins h → (x.left h).controls = x.controls ∧
          (x.left h).machine.registers = x.machine.registers)) ∧
      ∀ (x : Visit σ) (between : List (Visit σ)) (y : Visit σ),
        (x :: between ++ [y]).IsChain (Untouched h) → y.Begins h →
          ((∀ z ∈ x :: between, ¬ z.Begins h) → y.Sees h x.controls.typed) ∧
            ((∃ z ∈ x :: between, z.Begins h) → y.Sees h 0) := by
  refine ⟨fun x => ⟨begins_iff, fun begins => ⟨sees begins, x.typed_left.1 begins⟩, ?_,
    fun rests => ?_⟩, fun x between y untouched begins => ?_⟩
  · constructor
    · exact fun unrun begins => (of_begins begins).2 unrun
    · intro rests
      rw [left_of_not_begins rests]
  · rw [left_of_not_begins rests]
    exact ⟨rfl, rfl⟩
  · obtain ⟨waits, gone⟩ := typed_of_chain untouched
    have seen := sees begins
    exact ⟨fun rests => waits rests ▸ seen, fun earlier => gone earlier ▸ seen⟩

/-- A character is typed, and then the machine is called too early and once while the game is stopped.
The pass after that sees the character, writes another word into the register of the key and returns
from no call; the next one, which goes on where this one has failed, finds neither. -/
theorem typed_seen_once_waiting :
    let h : Host Unit := ⟨fun _ _ => none, fun s _ => (.ok (), s), fun s _ => s,
      fun s _ => s, fun s _ => s, fun _ => 0⟩
    let m := { (powerOn .standard 0).install #[0x00, 0xda, 0, 9, 0x05] with pacer := ⟨0, 20⟩ }
    let one : Visit Unit := ⟨⟨m, { Controls.neutral with typed := 7 }, ()⟩, true⟩
    let two : Visit Unit :=
      ⟨⟨(one.left h).machine, { (one.left h).controls with pause := true }, ()⟩, true⟩
    let three : Visit Unit := ⟨⟨(two.left h).machine, (two.left h).controls, ()⟩, false⟩
    let four : Visit Unit := ⟨⟨(three.left h).machine, (three.left h).controls, ()⟩, false⟩
    [one, two, three, four].IsChain (Untouched h) ∧ ¬ one.Begins h ∧ ¬ two.Begins h ∧
      (three.left h).result = .error (.stackUnderflow ⟨0, by decide⟩ 4) ∧
      (three.left h).machine.registers.get Register.inputKey = 9 ∧
      (three.executions h).length = 2 ∧ three.Sees h 7 ∧
      (four.executions h).length = 1 ∧ four.Sees h 0 := by
  intro h m one two three four
  have untouched : [one, two, three, four].IsChain (Untouched h) :=
    .cons_cons rfl (.cons_cons rfl (.cons_cons rfl (.singleton _)))
  have before : ¬ one.Begins h ∧ ¬ two.Begins h ∧ three.Begins h ∧ four.Begins h := by
    decide +kernel
  have failed : (three.left h).result = .error (.stackUnderflow ⟨0, by decide⟩ 4) ∧
      (three.left h).machine.registers.get Register.inputKey = 9 := by
    decide +kernel
  have lengths : (three.executions h).length = 2 ∧ (four.executions h).length = 1 := by
    decide +kernel
  obtain ⟨early, stopped, third, fourth⟩ := before
  obtain ⟨-, delivered⟩ := typed_seen_once h
  have seen : three.Sees h 7 := by
    refine (delivered one [two] three ?_ third).1 ?_
    · exact .cons_cons rfl (.cons_cons rfl (.singleton _))
    · rintro z member
      rcases List.mem_pair.1 member with rfl | rfl
      · exact early
      · exact stopped
  have gone : four.Sees h 0 :=
    (delivered one [two, three] four untouched fourth).2 ⟨three, by simp, third⟩
  exact ⟨untouched, early, stopped, failed.1, failed.2, lengths.1, seen, lengths.2, gone⟩

end Visit

end Machine

end Cinematic
