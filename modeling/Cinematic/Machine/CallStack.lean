/-!
# The call stack

All threads share one stack of return addresses. It holds at most 256 of them, and nothing in
it says which thread an address belongs to: a thread that calls and then yields leaves its
return address to whichever thread returns next.

What the stack holds is the list `Cinematic.CallStack.toList`, the latest address last. **A push
appends to that list unless it is full, and a pop takes off what was pushed last.**
-/

namespace Cinematic

/-- How many return addresses there is room for. -/
def callStackCapacity : Nat := 256

/-- The return addresses of all threads. -/
structure CallStack where
  /-- The addresses, the latest last. -/
  addresses : Array UInt16
  /-- There is room for no more. -/
  size_le : addresses.size ≤ callStackCapacity

namespace CallStack

/-- The stack without addresses. -/
def empty : CallStack := ⟨#[], Nat.zero_le _⟩

/-- The addresses, the latest last. -/
def toList (s : CallStack) : List UInt16 := s.addresses.toList

/-- How many addresses there are. -/
def depth (s : CallStack) : Nat := s.addresses.size

/-- Whether there are none. -/
def isEmpty (s : CallStack) : Bool := s.addresses.isEmpty

/-- The stack with one more address, unless it is full. -/
def push? (s : CallStack) (address : UInt16) : Option CallStack :=
  if room : s.addresses.size < callStackCapacity then
    some ⟨s.addresses.push address, by rw [Array.size_push]; exact room⟩
  else none

/-- The latest address and the stack without it, unless there is none. -/
def pop? (s : CallStack) : Option (UInt16 × CallStack) :=
  match s.addresses.back? with
  | none => none
  | some address =>
    some (address, ⟨s.addresses.pop, by
      rw [Array.size_pop]
      exact Nat.le_trans (Nat.sub_le _ _) s.size_le⟩)

theorem push?_eq_none {s : CallStack} (h : s.depth = callStackCapacity) (address : UInt16) :
    s.push? address = none := by
  have : ¬ s.addresses.size < callStackCapacity := by unfold depth at h; omega
  simp [push?, this]

theorem push?_eq_none_iff (s : CallStack) (address : UInt16) :
    s.push? address = none ↔ s.depth = callStackCapacity := by
  refine ⟨fun refused => ?_, fun full => push?_eq_none full address⟩
  unfold push? at refused
  split at refused
  · cases refused
  · next full => exact Nat.le_antisymm s.size_le (Nat.not_lt.1 full)

@[simp] theorem length_toList (s : CallStack) : s.toList.length = s.depth := Array.length_toList

theorem toList_of_push? {s s' : CallStack} {address : UInt16} (h : s.push? address = some s') :
    s'.toList = s.toList ++ [address] := by
  unfold push? at h
  split at h
  · obtain rfl := Option.some.inj h
    simp [toList]
  · simp at h

theorem toList_of_pop? {s s' : CallStack} {address : UInt16} (h : s.pop? = some (address, s')) :
    s.toList = s'.toList ++ [address] := by
  unfold pop? at h
  split at h
  · cases h
  · next last =>
    cases h
    obtain ⟨rest, pushed⟩ := Array.back?_eq_some_iff.1 last
    simp [toList, pushed]

theorem pop?_eq_none_iff (s : CallStack) : s.pop? = none ↔ s.toList = [] := by
  unfold pop? toList
  cases h : s.addresses.back? with
  | none => simpa using h
  | some address =>
    simp only [reduceCtorEq, false_iff, Array.toList_eq_nil_iff]
    intro none
    simp [none] at h

end CallStack

end Cinematic
