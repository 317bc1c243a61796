import Mathlib.Tactic.IntervalCases
import Cinematic.Proofs.MemoryList.Table

/-!
# Which tables are memory lists

A table is read record by record until one of them closes it. **What comes of it depends on two
numbers only**, the whole records that a table has (`Cinematic.MemoryList.wholeRecords`) and those
of them before the first that closes it (`Cinematic.MemoryList.leading`): there may be too many
resources, or no closing record, and otherwise the table is a memory list of so many resources
(`Cinematic.MemoryList.parse_eq`). Bytes behind the closing record, and those at the end that are no
whole record, are never looked at.

A memory list that has been read can be written again. The new table has the same bytes wherever a
record means something, but for the states: a byte that announces no state becomes that of a
resource which is not needed (`Cinematic.MemoryEntry.getD_encode_decode`).

Conversely, a memory list is read back from its table **if and only if** it is one that reading can
give (`Cinematic.MemoryList.listed_of_parse`): the ids are the places, of which there are not too
many, and each kind is the one that its byte announces and does not close the table.
-/

namespace Cinematic

open Bytes

/-! ### Records written again -/

namespace MemoryEntry

/-- The byte that is written for a byte that was read as a state. -/
def settledState (byte : UInt8) : UInt8 := if byte = 1 ∨ byte = 2 then byte else 0

/-- The places in a record, behind the state, that mean something. -/
def meaningful : List Nat := [1, 6, 7, 8, 9, 10, 11, 14, 15, 18, 19]

theorem toByte_ofByte_state (byte : UInt8) :
    (Resource.State.ofByte byte).toByte = settledState byte := by
  unfold Resource.State.ofByte
  split
  · rfl
  · rfl
  · next other₁ other₂ =>
    rw [settledState, if_neg (by rintro (one | two) <;> contradiction)]
    rfl

/-- An entry depends on the bytes of its record and on no others. -/
theorem decode_congr {id : UInt16} {b b' : Bytes} {pos : Nat}
    (same : ∀ j < recordSize, b'.byteAt (pos + j) = b.byteAt (pos + j)) :
    decode id b' pos = decode id b pos := by
  have word (j width : Nat) (inside : j + width ≤ recordSize) :
      wordAt b' (pos + j) width = wordAt b (pos + j) width := by
    refine wordAt_congr fun k short => ?_
    rw [Nat.add_assoc]
    exact same (j + k) (by omega)
  have first : b'.byteAt pos = b.byteAt pos := same 0 (by decide)
  rw [decode, decode, first, same 1 (by decide), same 6 (by decide), same 7 (by decide),
    word 8 4 (by decide), word 14 2 (by decide), word 18 2 (by decide)]

/-- **The record of an entry that was read** from a record. -/
theorem encode_decode (id : UInt16) (b : Bytes) (pos : Nat) :
    (decode id b pos).encode =
      [settledState (b.byteAt pos), b.byteAt (pos + 1), 0, 0, 0, 0, b.byteAt (pos + 6),
        b.byteAt (pos + 7), b.byteAt (pos + 8), b.byteAt (pos + 9), b.byteAt (pos + 10),
        b.byteAt (pos + 11), 0, 0, b.byteAt (pos + 14), b.byteAt (pos + 15), 0, 0,
        b.byteAt (pos + 18), b.byteAt (pos + 19)] := by
  have offset : (decode id b pos).bankOffset.toNat = wordAt b (pos + 8) 4 :=
    UInt32.toNat_ofNat_of_lt' (wordAt_lt b (pos + 8) 4)
  have packed : (decode id b pos).packedSize.toNat = wordAt b (pos + 14) 2 :=
    UInt16.toNat_ofNat_of_lt' (wordAt_lt b (pos + 14) 2)
  have unpacked : (decode id b pos).unpackedSize.toNat = wordAt b (pos + 18) 2 :=
    UInt16.toNat_ofNat_of_lt' (wordAt_lt b (pos + 18) 2)
  rw [encode, offset, packed, unpacked, bigEndian_wordAt_eq_map, bigEndian_wordAt_eq_map,
    bigEndian_wordAt_eq_map]
  change [(Resource.State.ofByte (b.byteAt pos)).toByte,
    (Resource.Kind.ofByte (b.byteAt (pos + 1))).toByte, 0, 0, 0, 0, _, _, _, _, _, _, 0, 0, _, _, 0,
    0, _, _] = _
  rw [toByte_ofByte_state, Resource.Kind.toByte_ofByte]
  rfl

/-- **A record that is written again** keeps its bytes where they mean something, up to what state
they announce, and is zero elsewhere. -/
theorem getD_encode_decode (id : UInt16) (b : Bytes) (pos : Nat) {j : Nat}
    (inside : j < recordSize) : (decode id b pos).encode.getD j 0 =
      if j = 0 then settledState (b.byteAt pos)
      else if j ∈ meaningful then b.byteAt (pos + j) else 0 := by
  rw [encode_decode]
  rw [recordSize] at inside
  interval_cases j <;> rfl

end MemoryEntry

namespace MemoryList

open MemoryEntry (recordSize settledState meaningful)

variable {b : Bytes} {l : MemoryList} {i : Nat}

/-! ### The records of a table -/

/-- How many whole records a table has. -/
def wholeRecords (b : Bytes) : Nat := b.size / recordSize

/-- Whether the record at a place closes the table. -/
def closes (b : Bytes) (i : Nat) : Bool := b.byteAt (i * recordSize + 1) = Resource.Kind.endMark

/-- **How many resources a table lists**: the whole records before the first that closes it, or all
of them if none does. -/
def leading (b : Bytes) : Nat :=
  ((List.range (wholeRecords b)).find? (closes b)).getD (wholeRecords b)

/-- The resources that the first records of a table describe. -/
def described (b : Bytes) (n : Nat) : Array MemoryEntry :=
  (Array.range n).map fun i => .decode i.toUInt16 b (i * recordSize)

theorem lt_wholeRecords_iff : i < wholeRecords b ↔ i * recordSize + recordSize ≤ b.size := by
  rw [wholeRecords, recordSize]
  omega

theorem leading_of_closes (inside : i < wholeRecords b) (closing : closes b i = true)
    (first : ∀ j < i, closes b j = false) : leading b = i := by
  have found : (List.range (wholeRecords b)).find? (closes b) = some i := by
    rw [List.find?_range_eq_some]
    refine ⟨closing, List.mem_range.2 inside, fun j before => ?_⟩
    rw [first j before]
    rfl
  rw [leading, found, Option.getD_some]

theorem leading_of_open (unclosed : ∀ j < wholeRecords b, closes b j = false) :
    leading b = wholeRecords b := by
  have missing : (List.range (wholeRecords b)).find? (closes b) = none := by
    rw [List.find?_range_eq_none]
    intro j inside
    rw [unclosed j inside]
    rfl
  rw [leading, missing, Option.getD_none]

/-- **The first record that closes a table follows those that are listed**, or there is none. -/
theorem leading_cases (b : Bytes) :
    (∀ j < leading b, closes b j = false) ∧
      (leading b < wholeRecords b ∧ closes b (leading b) = true ∨ leading b = wholeRecords b) := by
  cases found : (List.range (wholeRecords b)).find? (closes b) with
  | none =>
    have unclosed : ∀ j < wholeRecords b, closes b j = false := by
      intro j inside
      have other := List.find?_range_eq_none.1 found j inside
      simpa using other
    rw [leading_of_open unclosed]
    exact ⟨unclosed, .inr rfl⟩
  | some i =>
    obtain ⟨closing, inside, first⟩ := List.find?_range_eq_some.1 found
    have inside := List.mem_range.1 inside
    have first : ∀ j < i, closes b j = false := by
      intro j before
      simpa using first j before
    rw [leading_of_closes inside closing first]
    exact ⟨first, .inl ⟨inside, closing⟩⟩

theorem leading_lt_iff : leading b < wholeRecords b ↔ ∃ i < wholeRecords b, closes b i = true := by
  obtain ⟨first, ⟨inside, closing⟩ | all⟩ := leading_cases b
  · exact ⟨fun _ => ⟨_, inside, closing⟩, fun _ => inside⟩
  · constructor
    · intro less
      omega
    · rintro ⟨i, inside, closing⟩
      rw [first i (by omega)] at closing
      cases closing

@[simp] theorem size_described (b : Bytes) (n : Nat) : (described b n).size = n := by
  simp [described]

theorem getElem_described {n : Nat} (inside : i < (described b n).size) :
    (described b n)[i] = .decode i.toUInt16 b (i * recordSize) := by
  simp [described]

theorem described_succ (b : Bytes) (n : Nat) :
    described b (n + 1)
      = (described b n).push (.decode n.toUInt16 b (n * recordSize)) := by
  simp [described, Array.range_succ]

/-! ### Reading -/

/-- **What becomes of a table**, by the records that it has and those that it lists. -/
theorem parseOn_eq (b : Bytes) (read : Array MemoryEntry) (few : read.size ≤ maxEntries)
    (inside : read.size ≤ wholeRecords b) (unclosed : ∀ j < read.size, closes b j = false)
    (built : read = described b read.size) :
    parseOn b read =
      if maxEntries < leading b then .error .tooManyEntries
      else if leading b < wholeRecords b then .ok (described b (leading b))
      else .error (.truncated (leading b)) := by
  fun_induction parseOn b read with
  | case1 read pos complete closing =>
    have less : read.size < wholeRecords b := lt_wholeRecords_iff.2 complete
    rw [leading_of_closes less (decide_eq_true closing) unclosed, if_neg (by omega), if_pos less,
      ← built]
  | case2 read pos complete more many =>
    -- the record that is one too many is listed
    have less : read.size < wholeRecords b := lt_wholeRecords_iff.2 complete
    have listed : read.size < leading b := by
      obtain ⟨-, ⟨-, closing⟩ | all⟩ := leading_cases b
      · rcases Nat.lt_trichotomy read.size (leading b) with before | here | behind
        · exact before
        · rw [← here] at closing
          exact absurd (of_decide_eq_true closing) more
        · rw [unclosed _ behind] at closing
          cases closing
      · rwa [all]
    rw [if_pos (by omega)]
  | case3 read pos complete more many ih =>
    have less : read.size < wholeRecords b := lt_wholeRecords_iff.2 complete
    refine ih ?_ ?_ ?_ ?_
    · rw [Array.size_push]
      omega
    · rw [Array.size_push]
      exact less
    · intro j before
      rw [Array.size_push] at before
      rcases Nat.lt_succ_iff_lt_or_eq.1 before with earlier | rfl
      · exact unclosed j earlier
      · exact decide_eq_false more
    · rw [Array.size_push, described_succ, ← built]
  | case4 read pos incomplete =>
    have all : read.size = wholeRecords b :=
      Nat.le_antisymm inside (Nat.le_of_not_lt fun less => incomplete (lt_wholeRecords_iff.1 less))
    rw [all] at unclosed few
    rw [leading_of_open unclosed, if_neg (by omega), if_neg (Nat.lt_irrefl _), all]

theorem parse_eq (b : Bytes) :
    parse b =
      if maxEntries < leading b then .error .tooManyEntries
      else if leading b < wholeRecords b then .ok ⟨described b (leading b)⟩
      else .error (.truncated (leading b)) := by
  have reads := parseOn_eq b #[] (Nat.zero_le _) (Nat.zero_le _)
    (fun j before => absurd before (Nat.not_lt_zero j)) (by simp [described])
  rw [parse, reads]
  split
  · rfl
  · split
    · rfl
    · rfl

/-- A table that lists too many resources is refused for this reason alone. -/
theorem parse_eq_tooManyEntries_iff :
    parse b = .error .tooManyEntries ↔ maxEntries < leading b := by
  rw [parse_eq]
  constructor
  · intro refused
    split at refused
    · assumption
    · split at refused <;> cases refused
  · intro many
    rw [if_pos many]

/-- A table without a closing record is truncated, and the error says how many resources it
lists. -/
theorem parse_eq_truncated_iff {n : Nat} : parse b = .error (.truncated n) ↔
    leading b ≤ maxEntries ∧ ¬ leading b < wholeRecords b ∧ n = leading b := by
  rw [parse_eq]
  constructor
  · intro refused
    split at refused
    · cases refused
    · next few =>
      split at refused
      · cases refused
      · next unclosed =>
        cases refused
        exact ⟨Nat.le_of_not_lt few, unclosed, rfl⟩
  · rintro ⟨few, unclosed, rfl⟩
    rw [if_neg (Nat.not_lt.2 few), if_neg unclosed]

/-- **A table is a memory list** if it is closed and does not list too many resources. -/
theorem parse_eq_ok_iff : parse b = .ok l ↔
    leading b ≤ maxEntries ∧ leading b < wholeRecords b ∧ l = ⟨described b (leading b)⟩ := by
  rw [parse_eq]
  constructor
  · intro parsed
    split at parsed
    · cases parsed
    · next few =>
      split at parsed
      · next closed =>
        cases parsed
        exact ⟨Nat.le_of_not_lt few, closed, rfl⟩
      · cases parsed
  · rintro ⟨few, closed, rfl⟩
    rw [if_neg (Nat.not_lt.2 few), if_pos closed]

theorem listed_decode (open_ : closes b i = false) :
    (MemoryEntry.decode i.toUInt16 b (i * recordSize)).Listed i where
  id_eq := rfl
  canonical := congrArg Resource.Kind.ofByte (Resource.Kind.toByte_ofByte _)
  continues := by
    change (Resource.Kind.ofByte _).toByte ≠ _
    rw [Resource.Kind.toByte_ofByte]
    exact of_decide_eq_false open_

/-- **A memory list that was read could be written**: all of its entries are in their places. -/
theorem listed_of_parse (parsed : parse b = .ok l) (inside : i < l.entries.size) :
    l.entries[i].Listed i := by
  obtain ⟨-, -, rfl⟩ := parse_eq_ok_iff.1 parsed
  have before : i < leading b := by rwa [size_described] at inside
  rw [getElem_described inside]
  exact listed_decode ((leading_cases b).1 i before)

/-- **What follows the closing record makes no difference.** -/
theorem parse_congr {b' : Bytes} (parsed : parse b = .ok l)
    (long : (l.size + 1) * recordSize ≤ b'.size)
    (same : ∀ j < (l.size + 1) * recordSize, b'.byteAt j = b.byteAt j) : parse b' = .ok l := by
  obtain ⟨few, closed, rfl⟩ := parse_eq_ok_iff.1 parsed
  rw [size, size_described] at long same
  have unchanged (i j : Nat) (listed : i ≤ leading b) (inside : j < recordSize) :
      b'.byteAt (i * recordSize + j) = b.byteAt (i * recordSize + j) := by
    refine same _ ?_
    rw [recordSize] at inside ⊢
    omega
  have kinds (i : Nat) (listed : i ≤ leading b) : closes b' i = closes b i := by
    rw [closes, closes, unchanged i 1 listed (by decide)]
  have inside : leading b < wholeRecords b' := by
    rw [lt_wholeRecords_iff, ← Nat.succ_mul]
    exact long
  obtain ⟨first, ⟨-, closing⟩ | all⟩ := leading_cases b
  · have count : leading b' = leading b := by
      refine leading_of_closes inside ?_ fun j before => ?_
      · rw [kinds _ (Nat.le_refl _), closing]
      · rw [kinds j (Nat.le_of_lt before), first j before]
    have entries : described b' (leading b) = described b (leading b) := by
      refine Array.map_congr_left fun i listed => ?_
      have listed := Array.mem_range.1 listed
      exact MemoryEntry.decode_congr fun j inside => unchanged i j (Nat.le_of_lt listed) inside
    rw [parse_eq_ok_iff, count, entries]
    exact ⟨few, inside, rfl⟩
  · omega

/-! ### Writing -/

/-- **The records of a table** are those of its entries. -/
theorem byteAt_toBytes (inside : i < l.entries.size) {j : Nat} (within : j < recordSize) :
    l.toBytes.byteAt (i * recordSize + j) = l.entries[i].encode.getD j 0 := by
  have inside' : i < l.entries.toList.length := by rwa [Array.length_toList]
  have parts : l.entries.toList
      = l.entries.toList.take i ++ l.entries[i] :: l.entries.toList.drop (i + 1) := by
    rw [← Array.getElem_toList inside', List.getElem_cons_drop, List.take_append_drop]
  have place : i * recordSize
      = ((l.entries.toList.take i).flatMap MemoryEntry.encode).length := by
    rw [length_flatMap_encode, List.length_take, Nat.min_eq_left (Nat.le_of_lt inside')]
  rw [toBytes_eq parts, List.flatMap_cons, List.append_assoc, place, MemoryEntry.byteAt_record,
    List.getD_append _ _ _ _ (by rwa [MemoryEntry.length_encode])]

/-- **The records of a table that was read** are written again. -/
theorem byteAt_toBytes_described {n j : Nat} (inside : i < n) (within : j < recordSize) :
    (toBytes ⟨described b n⟩).byteAt (i * recordSize + j) =
      if j = 0 then settledState (b.byteAt (i * recordSize))
      else if j ∈ meaningful then b.byteAt (i * recordSize + j) else 0 := by
  have here : i < (described b n).size := by rwa [size_described]
  rw [byteAt_toBytes (l := ⟨described b n⟩) here within, getElem_described here,
    MemoryEntry.getD_encode_decode _ _ _ within]

/-- **The closing record** follows those of the entries. -/
theorem byteAt_toBytes_end (l : MemoryList) {j : Nat} (within : j < recordSize) :
    l.toBytes.byteAt (l.size * recordSize + j) = if j = 1 then Resource.Kind.endMark else 0 := by
  have place : l.size * recordSize = (l.entries.toList.flatMap MemoryEntry.encode).length := by
    rw [length_flatMap_encode, Array.length_toList, size]
  rw [toBytes, byteAt_toArray, place, List.getD_append_right _ _ _ _ (Nat.le_add_right _ _),
    Nat.add_sub_cancel_left]
  rw [recordSize] at within
  interval_cases j <;> rfl

/-! ### Tables and memory lists -/

/-- **A memory list is read back from its table if and only if** it has no more entries than there
are ids, each entry has its place as its id, and each kind is the one that its byte announces and
does not close the table. Nothing else about an entry matters. -/
theorem parse_toBytes_eq_ok_iff (l : MemoryList) :
    parse l.toBytes = .ok l ↔
      l.size ≤ 65536 ∧ ∀ i (e : MemoryEntry), l.entries[i]? = some e →
        e.id.toNat = i ∧ Resource.Kind.ofByte e.kind.toByte = e.kind ∧ e.kind.toByte ≠ 0xff := by
  constructor
  · intro parsed
    have few : l.size ≤ 65536 := by
      obtain ⟨few, -, same⟩ := parse_eq_ok_iff.1 parsed
      rw [same, size, size_described]
      exact few
    refine ⟨few, fun i e here => ?_⟩
    obtain ⟨inside, rfl⟩ := Array.getElem?_eq_some_iff.1 here
    have listed := listed_of_parse parsed inside
    refine ⟨?_, listed.canonical, listed.continues⟩
    rw [listed.id_eq]
    exact UInt16.toNat_ofNat_of_lt' (Nat.lt_of_lt_of_le inside few)
  · rintro ⟨few, entries⟩
    refine parse_toBytes few fun i inside => ?_
    obtain ⟨place, canonical, continues⟩ := entries i _ (Array.getElem?_eq_getElem inside)
    refine ⟨?_, canonical, continues⟩
    refine UInt16.toNat_inj.1 ?_
    rw [place]
    exact (UInt16.toNat_ofNat_of_lt' (Nat.lt_of_lt_of_le inside few)).symm

/-- **A table is a memory list exactly if** some whole record closes it and no more than 65536 come
before the first that does. Without a closing record it is truncated, unless it lists too many
resources, which is found out first. A memory list has as many entries as the table lists, with
their places as ids, and whatever follows the closing record makes no difference. Written again, it
has the bytes that it had wherever they mean something, up to the states, of which only two are
kept, and zeros elsewhere; and it is read back from what was written. -/
theorem parse_exact (b : Bytes) :
    let listed := leading b
    let closed := ∃ i < wholeRecords b, closes b i = true
    (parse b = .error .tooManyEntries ↔ 65536 < listed) ∧
      (∀ n, parse b = .error (.truncated n) ↔ listed ≤ 65536 ∧ ¬ closed ∧ n = listed) ∧
      ((∃ l, parse b = .ok l) ↔ listed ≤ 65536 ∧ closed) ∧
      ∀ l, parse b = .ok l →
        l.size = listed ∧ (∀ i < listed, ∃ e, l.entries[i]? = some e ∧ e.id.toNat = i) ∧
        (∀ rest : Bytes, parse (b.extract 0 ((listed + 1) * recordSize) ++ rest) = .ok l) ∧
        l.toBytes.size = (listed + 1) * recordSize ∧
        (∀ i < listed, ∀ j < recordSize, l.toBytes.byteAt (i * recordSize + j) =
          if j = 0 then settledState (b.byteAt (i * recordSize))
          else if j ∈ meaningful then b.byteAt (i * recordSize + j) else 0) ∧
        (∀ j < recordSize,
          l.toBytes.byteAt (listed * recordSize + j) = if j = 1 then 0xff else 0) ∧
        parse l.toBytes = .ok l := by
  intro listed closed
  have closing : closed ↔ leading b < wholeRecords b := leading_lt_iff.symm
  refine ⟨?_, fun n => ?_, ?_, fun l parsed => ?_⟩
  · exact parse_eq_tooManyEntries_iff
  · rw [closing]
    exact parse_eq_truncated_iff
  · rw [closing]
    constructor
    · rintro ⟨l, parsed⟩
      obtain ⟨few, inside, -⟩ := parse_eq_ok_iff.1 parsed
      exact ⟨few, inside⟩
    · rintro ⟨few, inside⟩
      exact ⟨_, parse_eq_ok_iff.2 ⟨few, inside, rfl⟩⟩
  · obtain ⟨few, inside, rfl⟩ := parse_eq_ok_iff.1 parsed
    have count : size ⟨described b listed⟩ = listed := size_described b listed
    have whole : (listed + 1) * recordSize ≤ b.size := by
      rw [Nat.succ_mul]
      exact lt_wholeRecords_iff.1 inside
    have front : (b.extract 0 ((listed + 1) * recordSize)).size = (listed + 1) * recordSize := by
      rw [Array.size_extract]
      omega
    refine ⟨count, fun i before => ?_, fun rest => ?_, ?_,
      fun i before j within => ?_, fun j within => ?_, ?_⟩
    · have here : i < (described b listed).size := by rwa [size_described]
      refine ⟨_, Array.getElem?_eq_getElem here, ?_⟩
      rw [getElem_described here]
      exact UInt16.toNat_ofNat_of_lt' (Nat.lt_of_lt_of_le before few)
    · refine parse_congr parsed ?_ fun j before => ?_
      · rw [count, Array.size_append, front]
        exact Nat.le_add_right _ _
      · rw [count] at before
        rw [byteAt_append_left (by rwa [front]), byteAt_extract (by omega), Nat.zero_add]
    · rw [size_toBytes, count]
    · exact byteAt_toBytes_described before within
    · have ends := byteAt_toBytes_end ⟨described b listed⟩ within
      rwa [count] at ends
    · refine parse_toBytes ?_ fun i here => listed_of_parse parsed here
      rw [count]
      exact few

/-- A table of two resources, of which the first announces no state and has bytes that mean nothing,
with more bytes in its closing record and behind it. -/
theorem parse_exact_trailing :
    let b : Bytes :=
      #[7, 9, 5, 5, 5, 5, 1, 2, 0, 0, 1, 0, 5, 5, 0, 3, 5, 5, 0, 6,
        2, 1, 0, 0, 0, 0, 0, 1, 0, 0, 0, 0, 0, 0, 0, 4, 0, 0, 0, 4,
        3, 0xff, 5, 5, 5, 5, 5, 5, 5, 5, 5, 5, 5, 5, 5, 5, 5, 5, 5, 5, 1, 2, 3]
    ∃ l, parse b = .ok l ∧ l.size = 2 ∧ l.toBytes.size = 60 ∧
      (l.toBytes.byteAt 0 = 0 ∧ l.toBytes.byteAt 2 = 0 ∧ l.toBytes.byteAt 19 = 6) ∧
      (l.toBytes.byteAt 20 = 2 ∧ l.toBytes.byteAt 42 = 0) ∧ parse l.toBytes = .ok l := by
  intro b
  have listed : leading b = 2 := by decide +kernel
  obtain ⟨-, -, accepted, written⟩ := parse_exact b
  obtain ⟨l, parsed⟩ := accepted.2 ⟨by rw [listed]; decide, 2, by decide, by decide⟩
  obtain ⟨size, -, -, length, records, closing, again⟩ := written l parsed
  rw [listed] at size length records closing
  refine ⟨l, parsed, size, length, ⟨?_, ?_, ?_⟩, ⟨?_, ?_⟩, again⟩
  · exact records 0 (by decide) 0 (by decide)
  · exact records 0 (by decide) 2 (by decide)
  · exact records 0 (by decide) 19 (by decide)
  · exact records 1 (by decide) 0 (by decide)
  · exact closing 2 (by decide)

end MemoryList

end Cinematic
