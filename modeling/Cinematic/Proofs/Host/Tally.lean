import Cinematic.Host.Recorder
import Mathlib.Algebra.BigOperators.Group.Finset.Basic
import Mathlib.Algebra.BigOperators.Group.Multiset.Basic
import Mathlib.Algebra.GroupWithZero.Nat

/-!
# What a recorder counts

A recorder keeps the calls that were made in their order, a table with how many calls there were of
each name, and a number for the pages shown, which it counts on its own. **These figures are all
taken from one record.** The table leaves out the names of calls that were not made, and what it
says of a name, or does not say, is how often the name stands in the record
(`Cinematic.Recorder.lookup_counts`). Every call has one of the names, and so the table adds up to
the length of the record (`Cinematic.Recorder.sum_counts`). The pages shown are the calls of one
name, as long as nothing but recording was done (`Cinematic.Recorder.Tallied`).
-/

namespace Cinematic

theorem HostCall.name_mem_names (c : HostCall) : c.name ∈ names := by
  cases c <;> simp [name, names]

theorem HostCall.nodup_names : names.Nodup := by decide

namespace Recorder

variable {r : Recorder}

/-! ### Tables without zeros -/

/-- In a table of figures from which the zeros have been taken out, a name that is missing stands
for zero. -/
theorem lookup_filter_ne_zero (figure : String → Nat) (names : List String) (name : String) :
    (((names.map fun n => (n, figure n)).filter fun row => row.2 ≠ 0).lookup name).getD 0
      = if name ∈ names then figure name else 0 := by
  induction names with
  | nil => rfl
  | cons n names ih =>
    rw [List.map_cons, List.filter_cons]
    by_cases same : name = n
    · subst same
      by_cases zero : figure name = 0
      · simpa [zero] using ih
      · simp [zero]
    · have skipped : (name == n) = false := beq_false_of_ne same
      simp only [List.mem_cons, same, false_or]
      split
      · rw [List.lookup_cons, skipped]
        exact ih
      · exact ih

/-- What a table adds up to does not depend on its zeros. -/
theorem sum_filter_ne_zero (figure : String → Nat) (names : List String) :
    (((names.map fun n => (n, figure n)).filter fun row => row.2 ≠ 0).map Prod.snd).sum
      = (names.map figure).sum := by
  induction names with
  | nil => rfl
  | cons n names ih =>
    rw [List.map_cons, List.filter_cons, List.map_cons, List.sum_cons, ← ih]
    by_cases zero : figure n = 0 <;> simp [zero]

/-! ### Calls counted by name -/

theorem count_eq_count_map (r : Recorder) (name : String) :
    r.count name = (r.calls.toList.map HostCall.name).count name := by
  rw [List.count, List.countP_map]
  rfl

/-- **What the table says of a name** is how many calls have it. -/
theorem lookup_counts (r : Recorder) (name : String) :
    (r.counts.lookup name).getD 0 = r.count name := by
  refine (lookup_filter_ne_zero r.count HostCall.names name).trans ?_
  split
  · rfl
  · next unknown =>
    -- a name that no call can have
    rw [count_eq_count_map, List.count_eq_zero_of_not_mem]
    intro made
    obtain ⟨c, -, rfl⟩ := List.mem_map.1 made
    exact unknown c.name_mem_names

/-- **The table adds up to the number of calls.** -/
theorem sum_counts (r : Recorder) : (r.counts.map Prod.snd).sum = r.calls.size := by
  have known : ∀ name ∈ (r.calls.toList.map HostCall.name : Multiset String),
      name ∈ HostCall.names.toFinset := by
    intro name made
    obtain ⟨c, -, rfl⟩ := List.mem_map.1 (Multiset.mem_coe.1 made)
    exact List.mem_toFinset.2 c.name_mem_names
  calc (r.counts.map Prod.snd).sum
      = (HostCall.names.map r.count).sum := sum_filter_ne_zero r.count HostCall.names
    _ = ∑ name ∈ HostCall.names.toFinset, r.count name :=
        (List.sum_toFinset r.count HostCall.nodup_names).symm
    _ = ∑ name ∈ HostCall.names.toFinset,
          (r.calls.toList.map HostCall.name : Multiset String).count name :=
        Finset.sum_congr rfl fun name _ => by rw [Multiset.coe_count, count_eq_count_map]
    _ = (r.calls.toList.map HostCall.name).length := Multiset.sum_count_eq_card known
    _ = r.calls.size := by rw [List.length_map, Array.length_toList]

/-! ### Pages shown -/

/-- **The pages shown are those in the record.** -/
def Tallied (r : Recorder) : Prop := r.frames = r.count "blit_page"

theorem tallied_empty : Tallied empty := rfl

theorem isBlit_iff {c : HostCall} : isBlit c = true ↔ c.name = "blit_page" := by
  cases c <;> simp [isBlit, HostCall.name]

theorem count_record (r : Recorder) (c : HostCall) (name : String) :
    (r.record c).count name = r.count name + if c.name = name then 1 else 0 := by
  simp [count, record, List.countP_append, List.countP_singleton]

theorem Tallied.record (tallied : r.Tallied) (c : HostCall) : (r.record c).Tallied := by
  rw [Tallied, count_record, ← tallied]
  by_cases blit : isBlit c = true
  · rw [if_pos (isBlit_iff.1 blit)]
    exact if_pos blit
  · rw [if_neg (mt isBlit_iff.2 blit)]
    exact if_neg blit

end Recorder

end Cinematic
