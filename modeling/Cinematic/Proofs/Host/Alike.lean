import Cinematic.Host.Rehearsal
import Cinematic.Machine.Execute

/-!
# Hosts that cannot be told apart

A machine knows its host only by the answers that it gets. Two hosts whose states are related so
that related states answer **alike**, and become related states again, are one host for the machine
(`Cinematic.Host.Answers`), and an instruction cannot tell which of the two it has
(`Cinematic.Machine.execute_alike`).

That a host sees the steps of a pass is no answer, so it comes on top (`Cinematic.Host.Alike`). The
number of a pass is the only thing in a step that a machine has from outside its segment. How
far two hosts may be shown passes of different numbers is said by a relation between numbers: equal
numbers for two runs of one machine, any numbers for machines of different age.

**A host may take minutes** (`Cinematic.Host.transcribed`): it is alike to the host that it was, and
it has the list of all that the machine has told it or asked of it. By this list it is said what a
machine shows to its host.
-/

namespace Cinematic

open Bytecode

namespace Host

variable {σ₁ σ₂ : Type}

/-- **Related states answer alike**, and stay related. -/
structure Answers (h₁ : Host σ₁) (h₂ : Host σ₂) (R : σ₁ → σ₂ → Prop) : Prop where
  resource? {s₁ : σ₁} {s₂ : σ₂} (related : R s₁ s₂) (id : UInt16) :
    h₁.resource? s₁ id = h₂.resource? s₂ id
  load {s₁ : σ₁} {s₂ : σ₂} (related : R s₁ s₂) (id : UInt16) :
    (h₁.load s₁ id).1 = (h₂.load s₂ id).1 ∧ R (h₁.load s₁ id).2 (h₂.load s₂ id).2
  call {s₁ : σ₁} {s₂ : σ₂} (related : R s₁ s₂) (c : HostCall) : R (h₁.call s₁ c) (h₂.call s₂ c)
  note {s₁ : σ₁} {s₂ : σ₂} (related : R s₁ s₂) (e : Log.Entry) : R (h₁.note s₁ e) (h₂.note s₂ e)

/-- **Two hosts that cannot be told apart**, if passes are shown to them with related numbers. -/
structure Alike (h₁ : Host σ₁) (h₂ : Host σ₂) (R : σ₁ → σ₂ → Prop) (N : Nat → Nat → Prop) : Prop
    extends Answers h₁ h₂ R where
  observe {s₁ : σ₁} {s₂ : σ₂} (related : R s₁ s₂) {e : TraceEvent} (inside : ∀ n, e ≠ .pass n) :
    R (h₁.observe s₁ e) (h₂.observe s₂ e)
  pass {s₁ : σ₁} {s₂ : σ₂} (related : R s₁ s₂) {n₁ n₂ : Nat} (numbers : N n₁ n₂) :
    R (h₁.observe s₁ (.pass n₁)) (h₂.observe s₂ (.pass n₂))

/-- A host cannot be told apart from itself. -/
theorem Alike.refl {σ : Type} (h : Host σ) : h.Alike h Eq Eq where
  resource? related _ := by rw [related]
  load related _ := by rw [related]; exact ⟨rfl, rfl⟩
  call related _ := by rw [related]
  note related _ := by rw [related]
  observe related _ _ := by rw [related]
  pass related _ _ numbers := by rw [related, numbers]

end Host

/-! ### Executing an instruction -/

namespace Machine

section Alike

variable {σ₁ σ₂ : Type} {h₁ : Host σ₁} {h₂ : Host σ₂} {R : σ₁ → σ₂ → Prop} {s₁ : σ₁} {s₂ : σ₂}
  (alike : h₁.Answers h₂ R) (related : R s₁ s₂)

include alike related

theorem playable_alike (kind : Resource.Kind) (id : UInt16) :
    (playable h₁ s₁ kind id).2 = (playable h₂ s₂ kind id).2 ∧
      R (playable h₁ s₁ kind id).1 (playable h₂ s₂ kind id).1 := by
  rw [playable, playable, alike.resource? related id]
  cases h₂.resource? s₂ id with
  | none => exact ⟨rfl, alike.note related _⟩
  | some d =>
    dsimp only
    split
    · exact ⟨rfl, alike.note related _⟩
    · split
      · exact ⟨rfl, related⟩
      · exact ⟨rfl, alike.note related _⟩

theorem executeSound_alike (id : UInt16) (frequency volume channel : UInt8) :
    R (executeSound h₁ s₁ id frequency volume channel)
      (executeSound h₂ s₂ id frequency volume channel) := by
  have played := playable_alike alike related .sound id
  rw [executeSound, executeSound]
  generalize playable h₁ s₁ .sound id = p₁ at played ⊢
  generalize playable h₂ s₂ .sound id = p₂ at played ⊢
  obtain ⟨s₁', fits₁⟩ := p₁
  obtain ⟨s₂', fits₂⟩ := p₂
  obtain ⟨rfl, related'⟩ := played
  cases fits₁ with
  | true => exact alike.call related' _
  | false => exact related'

theorem executeMusic_alike (id delay : UInt16) (position : UInt8) :
    R (executeMusic h₁ s₁ id delay position) (executeMusic h₂ s₂ id delay position) := by
  rw [executeMusic, executeMusic]
  split
  · split
    · exact alike.call related _
    · exact alike.call related _
  · have played := playable_alike alike related .music id
    generalize playable h₁ s₁ .music id = p₁ at played ⊢
    generalize playable h₂ s₂ .music id = p₂ at played ⊢
    obtain ⟨s₁', fits₁⟩ := p₁
    obtain ⟨s₂', fits₂⟩ := p₂
    obtain ⟨rfl, related'⟩ := played
    cases fits₁ with
    | true => exact alike.call related' _
    | false => exact related'

theorem executeLoad_alike (id : UInt16) :
    (executeLoad h₁ s₁ id).1 = (executeLoad h₂ s₂ id).1 ∧
      R (executeLoad h₁ s₁ id).2 (executeLoad h₂ s₂ id).2 := by
  have loaded := alike.load related id
  rw [executeLoad, executeLoad]
  generalize h₁.load s₁ id = p₁ at loaded ⊢
  generalize h₂.load s₂ id = p₂ at loaded ⊢
  obtain ⟨r₁, s₁'⟩ := p₁
  obtain ⟨r₂, s₂'⟩ := p₂
  obtain ⟨rfl, related'⟩ := loaded
  cases r₁ with
  | error cause => exact ⟨rfl, related'⟩
  | ok _ =>
    dsimp only
    split
    · exact ⟨rfl, alike.note related' _⟩
    · rw [alike.resource? related' id]
      split
      · exact ⟨rfl, alike.call related' _⟩
      · exact ⟨rfl, related'⟩

/-- **An instruction cannot tell apart two hosts that answer alike.** -/
theorem execute_alike (m : Machine) (t : Fin threadCount) (pc : UInt16) (i : Instruction)
    (next : Nat) :
    (execute h₁ m s₁ t pc i next).2 = (execute h₂ m s₂ t pc i next).2 ∧
      R (execute h₁ m s₁ t pc i next).1 (execute h₂ m s₂ t pc i next).1 := by
  cases i with
  | sound id frequency volume channel =>
    exact ⟨rfl, executeSound_alike alike related id frequency volume channel⟩
  | music id delay position => exact ⟨rfl, executeMusic_alike alike related id delay position⟩
  | loadres id =>
    have loaded := executeLoad_alike alike related id
    simp only [execute]
    generalize executeLoad h₁ s₁ id = p₁ at loaded ⊢
    generalize executeLoad h₂ s₂ id = p₂ at loaded ⊢
    obtain ⟨r₁, s₁'⟩ := p₁
    obtain ⟨r₂, s₂'⟩ := p₂
    obtain ⟨rfl, related'⟩ := loaded
    cases r₁ with
    | error x => exact ⟨rfl, related'⟩
    | ok _ => exact ⟨rfl, related'⟩
  | cjmp cond reg operand target =>
    simp only [execute]
    split
    · exact ⟨rfl, alike.note related _⟩
    · exact ⟨rfl, related⟩
  | palette | page | fill | copy | blit | print | poly => exact ⟨rfl, alike.call related _⟩
  | _ => exact ⟨rfl, related⟩

end Alike

end Machine

/-! ### Minutes -/

/-- What a machine tells its host or asks of it. -/
inductive Message where
  /-- A step of a pass. -/
  | step (e : TraceEvent)
  /-- Something to show or to play. -/
  | call (c : HostCall)
  /-- A resource to load, or a part that is wanted. -/
  | load (id : UInt16)
  /-- An entry for the log. -/
  | note (e : Log.Entry)
deriving DecidableEq

namespace Message

/-- The step of a pass, if it is one. -/
def step? : Message → Option TraceEvent
  | step e => some e
  | _ => none

/-- Whether the message does not depend on the number of a pass. -/
def isTimeless : Message → Bool
  | step (.pass _) => false
  | _ => true

end Message

/-- **The host that takes minutes** of what it is told and asked. -/
def Host.transcribed {σ : Type} (h : Host σ) : Host (σ × List Message) where
  resource? s id := h.resource? s.1 id
  load s id := ((h.load s.1 id).1, (h.load s.1 id).2, s.2 ++ [.load id])
  call s c := (h.call s.1 c, s.2 ++ [.call c])
  observe s e := (h.observe s.1 e, s.2 ++ [.step e])
  note s e := (h.note s.1 e, s.2 ++ [.note e])
  ticks s := h.ticks s.1

namespace Host

variable {σ σ₁ σ₂ : Type}

/-- **Taking minutes makes no difference.** -/
theorem alike_transcribed (h : Host σ) : h.Alike h.transcribed (fun s s' => s = s'.1) Eq where
  resource? related id := by rw [related]; rfl
  load related id := by rw [related]; exact ⟨rfl, rfl⟩
  call related c := by rw [related]; rfl
  note related e := by rw [related]; rfl
  observe related _ _ := by rw [related]; rfl
  pass related _ _ numbers := by rw [related, numbers]; rfl

/-- **Hosts that cannot be told apart take the same minutes**, but for the numbers of passes. -/
theorem Alike.transcribed {h₁ : Host σ₁} {h₂ : Host σ₂} {R : σ₁ → σ₂ → Prop}
    {N : Nat → Nat → Prop} (alike : h₁.Alike h₂ R N) :
    h₁.transcribed.Alike h₂.transcribed
      (fun s₁ s₂ => R s₁.1 s₂.1 ∧ s₁.2.filter Message.isTimeless = s₂.2.filter Message.isTimeless)
      N where
  resource? related id := alike.resource? related.1 id
  load related id := by
    have loaded := alike.load related.1 id
    refine ⟨loaded.1, loaded.2, ?_⟩
    simp only [Host.transcribed, List.filter_append, related.2]
  call related c := by
    refine ⟨alike.call related.1 c, ?_⟩
    simp only [Host.transcribed, List.filter_append, related.2]
  note related e := by
    refine ⟨alike.note related.1 e, ?_⟩
    simp only [Host.transcribed, List.filter_append, related.2]
  observe related _ inside := by
    refine ⟨alike.observe related.1 inside, ?_⟩
    simp only [Host.transcribed, List.filter_append, related.2]
  pass related _ _ numbers := by
    refine ⟨alike.pass related.1 numbers, ?_⟩
    simp only [Host.transcribed, List.filter_append, related.2]
    rfl

end Host

namespace Rehearsal

/-- A rehearsal that writes no steps down takes no notice of them. -/
theorem observe_of_off {r : Rehearsal} (off : r.tracing = .off) (e : TraceEvent) :
    r.observe e = r := by
  obtain ⟨resources, loads, recorder, log, tracing, now⟩ := r
  obtain rfl : tracing = .off := off
  rfl

theorem load_tracing (r : Rehearsal) (id : UInt16) : (r.load id).2.tracing = r.tracing := by
  unfold load
  dsimp only
  split
  · split
    · rfl
    · rfl
    · rfl
  · split
    · rfl
    · rfl

/-- **A rehearsal that writes no steps down behaves as itself**, whatever the numbers of passes. -/
theorem alike_of_off :
    host.Alike host (fun r r' => r = r' ∧ r.tracing = .off) fun _ _ => True where
  resource? related id := by rw [related.1]
  load related id := by
    obtain ⟨rfl, off⟩ := related
    exact ⟨rfl, rfl, (load_tracing _ id).trans off⟩
  call related c := by
    obtain ⟨rfl, off⟩ := related
    exact ⟨rfl, off⟩
  note related e := by
    obtain ⟨rfl, off⟩ := related
    exact ⟨rfl, off⟩
  observe related e _ := by
    obtain ⟨rfl, off⟩ := related
    exact ⟨rfl, (congrArg tracing (observe_of_off off e)).trans off⟩
  pass related n₁ n₂ _ := by
    obtain ⟨rfl, off⟩ := related
    change Rehearsal.observe _ _ = Rehearsal.observe _ _ ∧ (Rehearsal.observe _ _).tracing = _
    rw [observe_of_off off, observe_of_off off]
    exact ⟨rfl, off⟩

end Rehearsal

end Cinematic
