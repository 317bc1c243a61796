import Cinematic.Proofs.Host.Alike
import Cinematic.Proofs.Machine.Execution

/-!
# What a machine plays and draws

A machine asks its host about a resource before it plays it or makes it the background, and **it
makes no such call unless the host offers the resource** (`Cinematic.Host.Permits`). So whatever a
host keeps true of itself as long as only permitted calls are made (`Cinematic.Host.Maintains`), it
keeps true through every pass (`Cinematic.Machine.run_maintains`). This is how anything is proved of
the calls of a pass: one says what is true of the host at the moment of a call.

A sound or a music that the host does not offer is passed over: there is no call, only an entry for
the log, and the machine goes on behind the instruction.

At which moment a call was made is told by a host that **stamps** its calls
(`Cinematic.Host.stamped`): with each call it keeps its own state just before it.
-/

namespace Cinematic

open Bytecode

namespace Host

variable {σ : Type} {h : Host σ} {s : σ}

/-- The host has a resource of a kind in memory. -/
def Offers (h : Host σ) (s : σ) (kind : Resource.Kind) (id : UInt16) : Prop :=
  ∃ d, h.resource? s id = some d ∧ d.kind = kind ∧ d.state = .loaded

/-- **The calls that may be made**: what is played or drawn is offered, and two ids name no
music. -/
def Permits (h : Host σ) (s : σ) : HostCall → Prop
  | .playSound id _ _ _ => h.Offers s .sound id
  | .playMusic id _ _ => (id ≠ 0 ∧ id ≠ 0xffff) ∧ h.Offers s .music id
  | .drawBitmap id => h.Offers s .bitmap id
  | _ => True

/-- **The host keeps something true of itself**, if no calls but permitted ones are made. -/
structure Maintains (h : Host σ) (I : σ → Prop) : Prop where
  load {s : σ} (holds : I s) (id : UInt16) : I (h.load s id).2
  call {s : σ} (holds : I s) {c : HostCall} (permitted : h.Permits s c) : I (h.call s c)
  note {s : σ} (holds : I s) (e : Log.Entry) : I (h.note s e)
  observe {s : σ} (holds : I s) (e : TraceEvent) : I (h.observe s e)

/-- **The host that stamps its calls** with its state just before them. -/
def stamped (h : Host σ) : Host (σ × List (HostCall × σ)) where
  resource? s id := h.resource? s.1 id
  load s id := ((h.load s.1 id).1, (h.load s.1 id).2, s.2)
  call s c := (h.call s.1 c, s.2 ++ [(c, s.1)])
  observe s e := (h.observe s.1 e, s.2)
  note s e := (h.note s.1 e, s.2)
  ticks s := h.ticks s.1

/-- **Stamping calls makes no difference.** -/
theorem alike_stamped (h : Host σ) : h.Alike h.stamped (fun s s' => s = s'.1) Eq where
  resource? related id := by rw [related]; rfl
  load related id := by rw [related]; exact ⟨rfl, rfl⟩
  call related c := by rw [related]; rfl
  note related e := by rw [related]; rfl
  observe related _ _ := by rw [related]; rfl
  pass related _ _ numbers := by rw [related, numbers]; rfl

theorem permits_stamped {stamps : List (HostCall × σ)} {c : HostCall} :
    h.stamped.Permits (s, stamps) c ↔ h.Permits s c := by
  cases c with
  | _ => exact Iff.rfl

end Host

namespace Machine

variable {σ : Type} {h : Host σ} {m : Machine} {s : σ}

/-! ### Instructions -/

/-- **What is offered can be played, and nothing else.** -/
theorem playable_spec (h : Host σ) (s : σ) (kind : Resource.Kind) (id : UInt16) :
    h.Offers s kind id ∧ playable h s kind id = (s, true) ∨
      ¬ h.Offers s kind id ∧ ∃ e, playable h s kind id = (h.note s e, false) := by
  unfold playable Host.Offers
  cases known : h.resource? s id with
  | none =>
    refine .inr ⟨?_, _, rfl⟩
    rintro ⟨d, found, -⟩
    cases found
  | some d =>
    dsimp only
    split
    · next other =>
      refine .inr ⟨?_, _, rfl⟩
      rintro ⟨_, ⟨⟩, same, -⟩
      exact other same
    · next same =>
      split
      · next loaded =>
        exact .inl ⟨⟨d, rfl, Decidable.not_not.1 same, of_decide_eq_true loaded⟩, rfl⟩
      · next unloaded =>
        refine .inr ⟨?_, _, rfl⟩
        rintro ⟨_, ⟨⟩, -, loaded⟩
        exact unloaded (decide_eq_true loaded)

theorem executeSound_spec (h : Host σ) (s : σ) (id : UInt16) (frequency volume channel : UInt8) :
    h.Offers s .sound id ∧
        executeSound h s id frequency volume channel
          = h.call s (.playSound id channel volume frequency) ∨
      ¬ h.Offers s .sound id ∧ ∃ e, executeSound h s id frequency volume channel = h.note s e := by
  rw [executeSound]
  rcases playable_spec h s .sound id with ⟨offered, can⟩ | ⟨missing, e, cannot⟩
  · rw [can]
    exact .inl ⟨offered, rfl⟩
  · rw [cannot]
    exact .inr ⟨missing, e, rfl⟩

/-- The music that plays is adjusted, or stopped if there is nothing to adjust. -/
theorem executeMusic_of_current (h : Host σ) (s : σ) {id : UInt16} (current : id = 0 ∨ id = 0xffff)
    (delay : UInt16) (position : UInt8) :
    executeMusic h s id delay position
      = h.call s
        (if position = 0 ∧ delay = 0 then .stopMusic else .adjustMusic position delay) := by
  rw [executeMusic, if_pos current]
  by_cases zero : position = 0 ∧ delay = 0
  · rw [if_pos zero, if_neg (by rintro (some | some) <;> simp [zero] at some)]
  · rw [if_neg zero, if_pos (by rw [← Classical.not_and_iff_not_or_not]; exact zero)]

theorem executeMusic_spec (h : Host σ) (s : σ) {id : UInt16} (named : ¬ (id = 0 ∨ id = 0xffff))
    (delay : UInt16) (position : UInt8) :
    h.Offers s .music id ∧
        executeMusic h s id delay position = h.call s (.playMusic id position delay) ∨
      ¬ h.Offers s .music id ∧ ∃ e, executeMusic h s id delay position = h.note s e := by
  rw [executeMusic, if_neg named]
  rcases playable_spec h s .music id with ⟨offered, can⟩ | ⟨missing, e, cannot⟩
  · rw [can]
    exact .inl ⟨offered, rfl⟩
  · rw [cannot]
    exact .inr ⟨missing, e, rfl⟩

/-- **A sound or a music never fails**, and the machine goes on behind it. -/
theorem execute_of_plays {i : Instruction}
    (plays : (∃ id frequency volume channel, i = .sound id frequency volume channel) ∨
      ∃ id delay position, i = .music id delay position)
    (h : Host σ) (m : Machine) (s : σ) (t : Fin threadCount) (pc : UInt16) (next : Nat) :
    (execute h m s t pc i next).2 = .ok next m := by
  rcases plays with ⟨id, frequency, volume, channel, rfl⟩ | ⟨id, delay, position, rfl⟩
  · rfl
  · rfl

theorem offers_of_isLoadedBitmap {id : UInt16}
    (bitmap : isLoadedBitmap (h.resource? s id) = true) : h.Offers s .bitmap id := by
  unfold isLoadedBitmap at bitmap
  split at bitmap
  · next d known =>
    obtain ⟨kind, loaded⟩ := of_decide_eq_true bitmap
    exact ⟨d, known, kind, of_decide_eq_true loaded⟩
  · cases bitmap

section Maintains

variable {I : σ → Prop} (kept : h.Maintains I)
include kept

theorem executeMusic_maintains (holds : I s) (id delay : UInt16) (position : UInt8) :
    I (executeMusic h s id delay position) := by
  by_cases current : id = 0 ∨ id = 0xffff
  · rw [executeMusic_of_current h s current]
    refine kept.call holds ?_
    split
    · trivial
    · trivial
  · rcases executeMusic_spec h s current delay position with ⟨offered, played⟩ | ⟨-, e, told⟩
    · rw [played]
      exact kept.call holds ⟨not_or.1 current, offered⟩
    · rw [told]
      exact kept.note holds e

theorem executeSound_maintains (holds : I s) (id : UInt16) (frequency volume channel : UInt8) :
    I (executeSound h s id frequency volume channel) := by
  rcases executeSound_spec h s id frequency volume channel with ⟨offered, played⟩ | ⟨-, e, told⟩
  · rw [played]
    exact kept.call holds offered
  · rw [told]
    exact kept.note holds e

theorem executeLoad_maintains (holds : I s) (id : UInt16) : I (executeLoad h s id).2 := by
  have loads := kept.load holds id
  rw [executeLoad]
  generalize h.load s id = answer at loads ⊢
  obtain ⟨result, s'⟩ := answer
  cases result with
  | error cause => exact loads
  | ok _ =>
    dsimp only
    split
    · exact kept.note loads _
    · split
      · next bitmap =>
        exact kept.call loads (offers_of_isLoadedBitmap bitmap)
      · exact loads

/-- **An instruction makes permitted calls only.** -/
theorem execute_maintains (m : Machine) (holds : I s) (t : Fin threadCount) (pc : UInt16)
    (i : Instruction) (next : Nat) : I (execute h m s t pc i next).1 := by
  cases i with
  | sound id frequency volume channel =>
    exact executeSound_maintains kept holds id frequency volume channel
  | music id delay position => exact executeMusic_maintains kept holds id delay position
  | loadres id =>
    have loads := executeLoad_maintains kept holds id
    simp only [execute]
    generalize executeLoad h s id = answer at loads ⊢
    obtain ⟨result, s'⟩ := answer
    cases result with
    | error x => exact loads
    | ok _ => exact loads
  | cjmp cond reg operand target =>
    simp only [execute]
    split
    · exact kept.note holds _
    · exact holds
  | palette | page | fill | copy | blit | print | poly => exact kept.call holds trivial
  | _ => exact holds

/-! ### Passes -/

theorem isAt_maintains {t : Fin threadCount} {pos : Nat} {e : Execution} {s' : σ}
    (here : e.IsAt h t m s pos s') (holds : I s) : I s' := by
  have done := execute_maintains kept m
    (kept.observe holds (.instruction t pos.toUInt16 e.instruction)) t pos.toUInt16 e.instruction
    e.next
  rw [here.execute] at done
  exact done

theorem Slice.maintains {t : Fin threadCount} {fuel pos : Nat} {es : List Execution} {ran : Ran σ}
    (slice : Slice h t fuel m s pos es ran) (holds : I s) : I ran.host := by
  induction slice with
  | exhausted | unread => exact holds
  | failed here | yields here => exact isAt_maintains kept here holds
  | continues here _ _ _ ih => exact ih (isAt_maintains kept here holds)

theorem Turns.maintains {ts : List (Fin threadCount)} {fuel : Nat} {es : List Execution}
    {ran : Ran σ} (turns : Turns h ts fuel m s es ran) (holds : I s) : I ran.host := by
  induction turns with
  | done => exact holds
  | skips _ _ ih => exact ih holds
  | fails _ slice => exact slice.maintains kept (kept.observe holds _)
  | serves _ slice _ ih =>
    exact ih (kept.observe (slice.maintains kept (kept.observe holds _)) _)

theorem step_maintains (m : Machine) (c : Controls) (holds : I s) : I (step h m c s).host := by
  obtain ⟨result, turns, -⟩ := step_turns h m c s
  exact turns.maintains kept (kept.observe holds _)

/-- **A pass makes permitted calls only.** -/
theorem run_maintains (m : Machine) (c : Controls) (holds : I s) : I (run h m c s).host := by
  rw [run]
  split
  · exact holds
  · next pacer _ =>
    have stepped := step_maintains kept { m with pacer := pacer } c holds
    generalize step h { m with pacer := pacer } c s = ran at stepped ⊢
    obtain ⟨m', c', s', result⟩ := ran
    cases result with
    | error x => exact stepped
    | ok _ => exact stepped

end Maintains

end Machine

end Cinematic
