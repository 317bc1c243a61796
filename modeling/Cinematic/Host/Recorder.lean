import Cinematic.Host.Basic

/-!
# Recording what is shown and played

Where there is neither screen nor loudspeaker, the calls of the machine are recorded in order. A
recorder also counts the pages shown, which are the frames that a player would have seen.
-/

namespace Cinematic

/-- The calls of a machine. -/
structure Recorder where
  /-- The calls, in order. -/
  calls : Array HostCall
  /-- How many pages were shown. -/
  frames : Nat

namespace Recorder

/-- Nothing recorded. -/
def empty : Recorder := ⟨#[], 0⟩

/-- Whether a call shows a page. -/
def isBlit : HostCall → Bool
  | .blitPage _ => true
  | _ => false

/-- The recorder with one more call. -/
def record (r : Recorder) (c : HostCall) : Recorder :=
  ⟨r.calls.push c, if isBlit c then r.frames + 1 else r.frames⟩

/-- How many calls have a name. -/
def count (r : Recorder) (name : String) : Nat := r.calls.toList.countP (·.name == name)

/-- **The calls counted by name**, in alphabetical order, without those that were not made. -/
def counts (r : Recorder) : List (String × Nat) :=
  (HostCall.names.map fun name => (name, r.count name)).filter fun (_, n) => n ≠ 0

end Recorder

end Cinematic
