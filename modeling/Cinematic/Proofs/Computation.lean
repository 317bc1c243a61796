/-!
# How a computation ends

Most of the programs here are computations that **keep what they have done when they fail**: a state
comes with an error as it does with a value. What such a computation does has therefore two sides,
and a specification of it has two as well (`Cinematic.Ends`). Of two computations in a row the
second one goes on from what the first has left, unless the first one fails.
-/

namespace Cinematic

section EStateM

variable {ε σ α β : Type} {x : EStateM ε σ α} {f : α → EStateM ε σ β} {s s' : σ}

/-- A sequence goes on where its first part succeeds. -/
theorem bind_eq_of_ok {a : α} (done : x s = .ok a s') : (x >>= f) s = f a s' := by
  change EStateM.bind x f s = _
  rw [EStateM.bind, done]

/-- A sequence fails where its first part fails. -/
theorem bind_eq_of_error {e : ε} (failed : x s = .error e s') : (x >>= f) s = .error e s' := by
  change EStateM.bind x f s = _
  rw [EStateM.bind, failed]

/-- **Two computations in a row succeed** if the first succeeds and the second does from there. -/
theorem bind_eq_ok {b : β} :
    (x >>= f) s = .ok b s' ↔ ∃ a t, x s = .ok a t ∧ f a t = .ok b s' := by
  constructor
  · intro run
    cases first : x s with
    | ok a t =>
      rw [bind_eq_of_ok first] at run
      exact ⟨a, t, rfl, run⟩
    | error e t =>
      rw [bind_eq_of_error first] at run
      cases run
  · rintro ⟨a, t, first, run⟩
    rw [bind_eq_of_ok first, run]

end EStateM

section Ends

variable {ε σ α β : Type} {s : σ} {P : α → σ → Prop} {Q : ε → σ → Prop}

/-- **How a computation ends**: with a value and a state, or with an error and a state. -/
def Ends (x : EStateM ε σ α) (s : σ) (P : α → σ → Prop) (Q : ε → σ → Prop) : Prop :=
  match x s with
  | .ok a s' => P a s'
  | .error e s' => Q e s'

theorem Ends.of_ok {x : EStateM ε σ α} (ends : Ends x s P Q) {a : α} {s' : σ}
    (done : x s = .ok a s') : P a s' := by
  rwa [Ends, done] at ends

theorem Ends.of_error {x : EStateM ε σ α} (ends : Ends x s P Q) {e : ε} {s' : σ}
    (failed : x s = .error e s') : Q e s' := by
  rwa [Ends, failed] at ends

/-- A computation that cannot fail gives a value. -/
theorem Ends.exists_ok {x : EStateM ε σ α} (ends : Ends x s P fun _ _ => False) :
    ∃ a s', x s = .ok a s' ∧ P a s' := by
  cases result : x s with
  | ok a s' => exact ⟨a, s', rfl, ends.of_ok result⟩
  | error e s' => exact (ends.of_error result).elim

/-- A computation that cannot succeed gives an error. -/
theorem Ends.exists_error {x : EStateM ε σ α} (ends : Ends x s (fun _ _ => False) Q) :
    ∃ e s', x s = .error e s' ∧ Q e s' := by
  cases result : x s with
  | ok a s' => exact (ends.of_ok result).elim
  | error e s' => exact ⟨e, s', rfl, ends.of_error result⟩

instance {x : EStateM ε σ α} [∀ a s', Decidable (P a s')] [∀ e s', Decidable (Q e s')] :
    Decidable (Ends x s P Q) :=
  match result : x s with
  | .ok a s' => decidable_of_iff (P a s') (by rw [Ends, result])
  | .error e s' => decidable_of_iff (Q e s') (by rw [Ends, result])

theorem Ends.mono {x : EStateM ε σ α} {P' : α → σ → Prop} {Q' : ε → σ → Prop}
    (ends : Ends x s P Q) (value : ∀ a s', P a s' → P' a s') (error : ∀ e s', Q e s' → Q' e s') :
    Ends x s P' Q' := by
  unfold Ends at ends ⊢
  split at ends
  · exact value _ _ ends
  · exact error _ _ ends

theorem Ends.bind {x : EStateM ε σ α} {f : α → EStateM ε σ β} {P' : β → σ → Prop}
    (first : Ends x s P Q) (second : ∀ a s', P a s' → Ends (f a) s' P' Q) :
    Ends (x >>= f) s P' Q := by
  change Ends (EStateM.bind x f) s P' Q
  unfold Ends at first
  rw [Ends, EStateM.bind]
  split at first
  · next a s' done =>
    rw [done]
    exact second a s' first
  · next e s' failed =>
    rw [failed]
    exact first

theorem Ends.map {x : EStateM ε σ α} {f : α → β} {P' : β → σ → Prop}
    (ends : Ends x s (fun a s' => P' (f a) s') Q) : Ends (f <$> x) s P' Q := by
  change Ends (EStateM.map f x) s P' Q
  unfold Ends at ends
  rw [Ends, EStateM.map]
  split at ends
  · next done => rw [done]; exact ends
  · next failed => rw [failed]; exact ends

end Ends

end Cinematic
