import Mathlib.Algebra.BigOperators.Group.List.Basic
import Mathlib.Algebra.Order.BigOperators.Group.List
import Cinematic.MemoryList.Totals
import Cinematic.Proofs.MemoryList.Exactness

/-!
# Totals lose nothing

Totals are counted in words of 32 bits, and words wrap around. What has to be shown is that this
never happens to a memory list that has been read (`Cinematic.MemoryList.totals_exact`), and the room
is just enough: a list has at most 65536 resources of at most 65535 bytes, and a single one more would
bring a word to the greatest value that it has (`Cinematic.MemoryList.totals_exact_full`).

That nothing wraps around is said by counting once more, **with additions that give nothing when
their sum is too large** (`Cinematic.MemoryList.tallies?`). What is counted so far is told row by row
(`Cinematic.MemoryList.Tallies.Counted`): the tally of a row shows what the resources come to whose
kind belongs to the row, and every kind belongs to one row, that of unknown kinds if to no other.
-/

namespace Cinematic

/-! ### Additions that may fail -/

/-- The sum of two words, if it is a word. -/
def wordSum? (a b : UInt32) : Option UInt32 :=
  if a.toNat + b.toNat < UInt32.size then some (a + b) else none

theorem wordSum?_eq {a b : UInt32} (fits : a.toNat + b.toNat < UInt32.size) :
    wordSum? a b = some (a + b) ∧ (a + b).toNat = a.toNat + b.toNat :=
  ⟨if_pos fits, (UInt32.toNat_add a b).trans (Nat.mod_eq_of_lt fits)⟩

/-- **What some resources come to**: their number, and the sums of their sizes. -/
def Total.of (entries : List MemoryEntry) : Total :=
  ⟨entries.length, (entries.map (·.packedSize.toNat)).sum, (entries.map (·.unpackedSize.toNat)).sum⟩

namespace Tally

/-- A tally with one more resource, if all three sums are words. -/
def add? (t : Tally) (e : MemoryEntry) : Option Tally := do
  let count ← wordSum? t.count 1
  let packed ← wordSum? t.packed e.packedSize.toUInt32
  let unpacked ← wordSum? t.unpacked e.unpackedSize.toUInt32
  pure ⟨count, packed, unpacked⟩

/-- Sizes of sixteen bits need many resources to become too large for a word. -/
theorem sum_sizes_le (size : MemoryEntry → UInt16) (entries : List MemoryEntry) :
    (entries.map fun e => (size e).toNat).sum ≤ entries.length * 65535 := by
  have each : ∀ n ∈ entries.map fun e => (size e).toNat, n ≤ 65535 := by
    intro n among
    obtain ⟨e, -, rfl⟩ := List.mem_map.1 among
    exact Nat.le_of_lt_succ (size e).toNat_lt
  exact (List.sum_le_card_nsmul _ _ each).trans_eq (by rw [List.length_map]; rfl)

/-- **A tally of few resources has room for one more.** -/
theorem add?_of_total {t : Tally} {done : List MemoryEntry} (shows : t.total = Total.of done)
    (few : done.length < MemoryList.maxEntries) (e : MemoryEntry) :
    t.add? e = some (t.add e) ∧ (t.add e).total = Total.of (done ++ [e]) := by
  have count : t.count.toNat = done.length := congrArg Total.count shows
  have packed : t.packed.toNat = (done.map (·.packedSize.toNat)).sum := congrArg Total.packed shows
  have unpacked : t.unpacked.toNat = (done.map (·.unpackedSize.toNat)).sum :=
    congrArg Total.unpacked shows
  have room (size : MemoryEntry → UInt16) :
      (done.map fun e => (size e).toNat).sum + (size e).toUInt32.toNat < UInt32.size := by
    have sum := sum_sizes_le size done
    have last := (size e).toNat_lt
    rw [UInt16.toNat_toUInt32]
    change done.length < 65536 at few
    change _ < 4294967296
    omega
  obtain ⟨counts, count'⟩ : wordSum? t.count 1 = some (t.count + 1) ∧ _ := wordSum?_eq <| by
    rw [count]
    exact Nat.lt_of_lt_of_le (Nat.add_lt_add_right few 1) (by decide)
  obtain ⟨packs, packed'⟩ := wordSum?_eq (packed ▸ room MemoryEntry.packedSize)
  obtain ⟨unpacks, unpacked'⟩ := wordSum?_eq (unpacked ▸ room MemoryEntry.unpackedSize)
  refine ⟨?_, ?_⟩
  · rw [add?, counts, packs, unpacks]
    rfl
  · rw [total, add, Total.of]
    dsimp only
    rw [count', packed', unpacked', count, packed, unpacked]
    simp

end Tally

namespace MemoryList

open Resource (Kind)

namespace Tallies

/-! ### Rows -/

/-- The sorts of kinds that have a row of their own. -/
def sorts : List (Kind → Bool) :=
  Kind.known.map (fun known kind => decide (kind = known))
    ++ [fun kind => decide (kind ∉ Kind.known)]

variable {t : Tallies} {done : List MemoryEntry} {p : Kind → Bool} {i : Nat}

/-- **A kind is counted in the row of its sort**, and in no other. -/
theorem sort_eq (here : sorts[i]? = some p) (kind : Kind) : p kind = decide (slot kind = i) := by
  have inside : i < 8 := (List.getElem?_eq_some_iff.1 here).1
  interval_cases i <;> cases here <;> cases kind <;> rfl

/-- Every kind is of one sort. -/
theorem countP_sorts (kind : Kind) : sorts.countP (· kind) = 1 := by
  cases kind <;> rfl

theorem slot_lt (kind : Kind) : slot kind < sorts.length :=
  Nat.lt_succ_of_le List.findIdx_le_length

/-! ### Counting -/

/-- The tallies with one more resource counted, if all sums are words. -/
def add? (t : Tallies) (e : MemoryEntry) : Option Tallies := do
  let row ← (t.row (slot e.kind)).add? e
  let whole ← t.whole.add? e
  pure ⟨t.rows.set (slot e.kind) row, whole⟩

/-- **The tallies tell what has been counted so far**, row by row. -/
structure Counted (t : Tallies) (done : List MemoryEntry) : Prop where
  length : t.rows.length = sorts.length
  row (i : Nat) (p : Kind → Bool) : sorts[i]? = some p →
    (t.row i).total = Total.of (done.filter (p ·.kind))
  whole : t.whole.total = Total.of done

theorem counted_zero : Counted zero [] where
  length := rfl
  row i p here := by
    have inside : i < 8 := (List.getElem?_eq_some_iff.1 here).1
    interval_cases i <;> rfl
  whole := rfl

/-- **One more resource is counted** as long as there are not too many of them. -/
theorem Counted.add (counted : Counted t done) (few : done.length < maxEntries) (e : MemoryEntry) :
    t.add? e = some (t.add e) ∧ Counted (t.add e) (done ++ [e]) := by
  obtain ⟨p, here⟩ : ∃ p, sorts[slot e.kind]? = some p :=
    ⟨_, List.getElem?_eq_getElem (slot_lt e.kind)⟩
  have own : p e.kind = true := (sort_eq here e.kind).trans (decide_eq_true rfl)
  obtain ⟨adds, shows⟩ := Tally.add?_of_total (counted.row _ p here)
    (Nat.lt_of_le_of_lt (List.length_filter_le _ _) few) e
  obtain ⟨addsWhole, showsWhole⟩ := Tally.add?_of_total counted.whole few e
  refine ⟨?_, ?_, fun i q there => ?_, showsWhole⟩
  · rw [add?, adds, addsWhole]
    rfl
  · exact List.length_set.trans counted.length
  · have belongs := sort_eq there e.kind
    rw [List.filter_append]
    by_cases same : slot e.kind = i
    · -- the row of the resource
      subst same
      cases here.symm.trans there
      have inside : slot e.kind < t.rows.length := counted.length ▸ slot_lt e.kind
      rw [List.filter_singleton, own, cond_true, ← shows]
      simp [Tallies.row, Tallies.add, inside]
    · rw [decide_eq_false same] at belongs
      rw [List.filter_singleton, belongs, cond_false, List.append_nil, ← counted.row i q there]
      simp [Tallies.row, Tallies.add, same]

/-- **Resources are counted** as long as there are not too many of them. -/
theorem Counted.foldl (counted : Counted t done) {rest : List MemoryEntry}
    (few : (done ++ rest).length ≤ maxEntries) :
    rest.foldlM add? t = some (rest.foldl Tallies.add t) ∧
      Counted (rest.foldl Tallies.add t) (done ++ rest) := by
  induction rest generalizing t done with
  | nil => exact ⟨rfl, (List.append_nil done).symm ▸ counted⟩
  | cons e rest ih =>
    have more : done.length < maxEntries := by
      rw [List.length_append, List.length_cons] at few
      omega
    obtain ⟨adds, counted'⟩ := counted.add more e
    rw [List.append_cons] at few ⊢
    obtain ⟨counts, ends⟩ := ih counted' few
    refine ⟨?_, ends⟩
    rw [List.foldlM_cons, adds]
    exact counts

theorem Counted.totals (counted : Counted t done) :
    t.rows.map Tally.total = sorts.map fun p => Total.of (done.filter (p ·.kind)) := by
  refine List.ext_getElem? fun i => ?_
  rw [List.getElem?_map, List.getElem?_map]
  rcases here : sorts[i]? with _ | p
  · have outside : t.rows.length ≤ i := counted.length.trans_le (List.getElem?_eq_none_iff.1 here)
    rw [List.getElem?_eq_none outside]
    rfl
  · have inside : i < t.rows.length :=
      counted.length.symm ▸ (List.getElem?_eq_some_iff.1 here).1
    have shows := counted.row i p here
    rw [Tallies.row, List.getD_eq_getElem _ _ inside] at shows
    rw [List.getElem?_eq_getElem inside, Option.map_some, Option.map_some, shows]

/-! ### Rows add up -/

theorem sum_map_ite (sorts : List (Kind → Bool)) (kind : Kind) (n : Nat) :
    (sorts.map fun p => if p kind then n else 0).sum = sorts.countP (· kind) * n := by
  induction sorts with
  | nil => simp
  | cons p sorts ih =>
    rw [List.map_cons, List.sum_cons, ih, List.countP_cons]
    split <;> simp [Nat.add_mul, Nat.add_comm]

/-- **What is added up row by row is added up for everything.** -/
theorem sum_rows (f : MemoryEntry → Nat) (entries : List MemoryEntry) :
    (sorts.map fun p => ((entries.filter (p ·.kind)).map f).sum).sum = (entries.map f).sum := by
  induction entries with
  | nil => rfl
  | cons e rest ih =>
    have row (p : Kind → Bool) : (((e :: rest).filter (p ·.kind)).map f).sum
        = (if p e.kind then f e else 0) + ((rest.filter (p ·.kind)).map f).sum := by
      rw [List.filter_cons]
      split <;> simp
    simp only [row]
    rw [List.sum_map_add, ih, sum_map_ite, countP_sorts, Nat.one_mul, List.map_cons, List.sum_cons]

end Tallies

/-! ### Memory lists -/

open Tallies (sorts names)

/-- A memory list counted, if all sums are words. -/
def tallies? (l : MemoryList) : Option Tallies := l.entries.toList.foldlM Tallies.add? .zero

/-- **Totals are exact.** When a memory list that has been read is counted, no sum is too large for a
word. There is a total for each of the seven known kinds, one for all other kinds and one for
everything. Each of the first eight is the number of the resources of its sort, with the sums of
their sizes; every resource is of one sort; and the total for everything is the sum of these eight. -/
theorem totals_exact {b : Bytes} {l : MemoryList} (parsed : parse b = .ok l) :
    let entries := l.entries.toList
    let rows := sorts.map fun p => Total.of (entries.filter (p ·.kind))
    l.tallies? = some l.tallies ∧
      l.totals = names.zip rows ++ [("total", Total.of entries)] ∧
      (∀ e ∈ entries, sorts.countP (· e.kind) = 1) ∧
      Total.of entries = ⟨(rows.map Total.count).sum, (rows.map Total.packed).sum,
        (rows.map Total.unpacked).sum⟩ := by
  intro entries rows
  have few : entries.length ≤ maxEntries := by
    obtain ⟨few, -, rfl⟩ := parse_eq_ok_iff.1 parsed
    exact (size_described b _).trans_le few
  obtain ⟨counts, counted⟩ := Tallies.counted_zero.foldl few
  have same : l.tallies = entries.foldl Tallies.add .zero := (Array.foldl_toList Tallies.add).symm
  refine ⟨?_, ?_, fun e _ => Tallies.countP_sorts e.kind, ?_⟩
  · rw [tallies?, same]
    exact counts
  · rw [totals, same, counted.totals, counted.whole]
    rfl
  · have count : entries.length = (entries.map fun _ => 1).sum := by simp
    rw [Total.of, count, ← Tallies.sum_rows, ← Tallies.sum_rows, ← Tallies.sum_rows]
    simp [rows, Total.of, Function.comp_def]

/-- A memory list as large as there are, of the largest resources of an unknown kind. One resource
more would still fit into a word, but not two. -/
theorem totals_exact_full :
    let entry (i : Nat) : MemoryEntry := ⟨i.toUInt16, .notNeeded, .unknown 9, 0, 1, 0, 65535, 65535⟩
    let l : MemoryList := ⟨((List.range 65536).map entry).toArray⟩
    let most : Total := ⟨65536, 4294901760, 4294901760⟩
    parse l.toBytes = .ok l ∧ l.tallies? = some l.tallies ∧
      l.totals.getLast? = some ("total", most) ∧ l.totals[7]? = some ("unknown", most) := by
  intro entry l most
  have count : l.entries.size = 65536 := by simp [l]
  have parsed : parse l.toBytes = .ok l := by
    refine parse_toBytes (Nat.le_of_eq count) fun i inside => ?_
    have here : l.entries[i] = entry i := by simp [l]
    rw [here]
    exact ⟨rfl, rfl, (by decide : (9 : UInt8) ≠ Kind.endMark)⟩
  obtain ⟨counts, totals, -, -⟩ := totals_exact parsed
  -- whatever their number
  have sizes (n : Nat) : Total.of ((List.range n).map entry) = ⟨n, n * 65535, n * 65535⟩ := by
    simp [Total.of, entry, Function.comp_def]
  have foreign (n : Nat) : ((List.range n).map entry).filter (fun e => decide (e.kind ∉ Kind.known))
      = (List.range n).map entry := by
    refine List.filter_eq_self.2 fun e among => ?_
    obtain ⟨i, -, rfl⟩ := List.mem_map.1 among
    exact (by decide : decide (Kind.unknown 9 ∉ Kind.known) = true)
  have listed : l.entries.toList = (List.range 65536).map entry := by simp only [l]
  have all : Total.of l.entries.toList = most := by simp only [listed, sizes, most, Nat.reduceMul]
  have unknown : l.entries.toList.filter (fun e => decide (e.kind ∉ Kind.known)) = l.entries.toList := by
    rw [listed, foreign]
  clear_value l
  refine ⟨parsed, counts, ?_, ?_⟩
  · rw [totals, List.getLast?_concat, all]
  · rw [totals]
    change some ("unknown", Total.of _) = _
    rw [unknown, all]

end MemoryList

end Cinematic
