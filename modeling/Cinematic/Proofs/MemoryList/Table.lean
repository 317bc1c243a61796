import Mathlib.Tactic.Ring
import Cinematic.MemoryList.Basic
import Cinematic.Proofs.Bytes

/-!
# Tables of memory lists

**A memory list is read back from its table** (`Cinematic.MemoryList.parse_toBytes`), provided that
its entries can be told from one another and from the end: the ids must be the places in the list,
since the table does not hold them, and each kind must be the one that its byte announces
(`Cinematic.MemoryEntry.Listed`).
-/

namespace Cinematic

open Bytes

namespace MemoryEntry

/-- An entry that a table can hold at a place. -/
structure Listed (e : MemoryEntry) (i : Nat) : Prop where
  id_eq : e.id = i.toUInt16
  /-- The kind is the one that its byte announces. -/
  canonical : Resource.Kind.ofByte e.kind.toByte = e.kind
  /-- The byte of the kind does not close the table. -/
  continues : e.kind.toByte ≠ Resource.Kind.endMark

section Record

variable (before after : List UInt8) (e : MemoryEntry)

/-- A byte of a record. -/
theorem byteAt_record (k : Nat) :
    byteAt (before ++ (e.encode ++ after)).toArray (before.length + k)
      = (e.encode ++ after).getD k 0 := by
  rw [byteAt_toArray, List.getD_append_right _ _ _ _ (by omega), Nat.add_sub_cancel_left]

theorem bankOffset_record :
    wordAt (before ++ (e.encode ++ after)).toArray (before.length + 8) 4
      = e.bankOffset.toNat % 256 ^ 4 := by
  have place := wordAt_append_bigEndian (before ++ e.encode.take 8)
    ([0, 0] ++ bigEndian 2 e.packedSize.toNat ++ [0, 0] ++ bigEndian 2 e.unpackedSize.toNat ++ after)
    4 e.bankOffset.toNat
  simpa [encode] using place

theorem packedSize_record :
    wordAt (before ++ (e.encode ++ after)).toArray (before.length + 14) 2
      = e.packedSize.toNat % 256 ^ 2 := by
  have place := wordAt_append_bigEndian
    (before ++ e.encode.take 8 ++ bigEndian 4 e.bankOffset.toNat ++ [0, 0])
    ([0, 0] ++ bigEndian 2 e.unpackedSize.toNat ++ after) 2 e.packedSize.toNat
  simpa [encode] using place

theorem unpackedSize_record :
    wordAt (before ++ (e.encode ++ after)).toArray (before.length + 18) 2
      = e.unpackedSize.toNat % 256 ^ 2 := by
  have place := wordAt_append_bigEndian
    (before ++ e.encode.take 8 ++ bigEndian 4 e.bankOffset.toNat ++ [0, 0]
      ++ bigEndian 2 e.packedSize.toNat ++ [0, 0]) after 2 e.unpackedSize.toNat
  simpa [encode] using place

/-- **An entry is read back from its record.** -/
theorem decode_encode (canonical : Resource.Kind.ofByte e.kind.toByte = e.kind) :
    decode e.id (before ++ (e.encode ++ after)).toArray before.length = e := by
  have state := byteAt_record before after e 0
  have kind := byteAt_record before after e 1
  have rank := byteAt_record before after e 6
  have bank := byteAt_record before after e 7
  rw [Nat.add_zero] at state
  rw [decode, state, kind, rank, bank, bankOffset_record, packedSize_record, unpackedSize_record]
  have offset : e.bankOffset.toNat % 256 ^ 4 = e.bankOffset.toNat :=
    Nat.mod_eq_of_lt e.bankOffset.toNat_lt
  have packed : e.packedSize.toNat % 256 ^ 2 = e.packedSize.toNat :=
    Nat.mod_eq_of_lt e.packedSize.toNat_lt
  have unpacked : e.unpackedSize.toNat % 256 ^ 2 = e.unpackedSize.toNat :=
    Nat.mod_eq_of_lt e.unpackedSize.toNat_lt
  rw [offset, packed, unpacked]
  change (⟨e.id, .ofByte e.state.toByte, .ofByte e.kind.toByte, e.rank, e.bank,
    e.bankOffset.toNat.toUInt32, e.packedSize.toNat.toUInt16, e.unpackedSize.toNat.toUInt16⟩ :
      MemoryEntry) = e
  rw [Resource.State.ofByte_toByte, canonical]
  simp

end Record

end MemoryEntry

namespace MemoryList

variable {l : MemoryList}

/-- Records take up twenty bytes each. -/
theorem length_flatMap_encode (entries : List MemoryEntry) :
    (entries.flatMap MemoryEntry.encode).length = entries.length * MemoryEntry.recordSize := by
  induction entries with
  | nil => simp
  | cons e entries ih =>
    rw [List.flatMap_cons, List.length_append, ih, MemoryEntry.length_encode, List.length_cons]
    ring

/-- A table, seen from a place in it. -/
theorem toBytes_eq {read rest : List MemoryEntry} (parts : l.entries.toList = read ++ rest) :
    l.toBytes = (read.flatMap MemoryEntry.encode
      ++ (rest.flatMap MemoryEntry.encode ++ endRecord)).toArray := by
  rw [toBytes, parts, List.flatMap_append, List.append_assoc]

theorem size_toBytes (l : MemoryList) :
    l.toBytes.size = (l.size + 1) * MemoryEntry.recordSize := by
  rw [toBytes, List.size_toArray, List.length_append, length_flatMap_encode, Array.length_toList,
    Nat.add_mul]
  rfl

/-- **Reading goes on from the records read** to the end of the table. -/
theorem parseOn_toBytes (small : l.size ≤ maxEntries)
    (listed : ∀ i (inside : i < l.entries.size), l.entries[i].Listed i) (rest : List MemoryEntry)
    (read : Array MemoryEntry) (parts : l.entries.toList = read.toList ++ rest) :
    parseOn l.toBytes read = .ok l.entries := by
  have place : read.size * MemoryEntry.recordSize
      = (read.toList.flatMap MemoryEntry.encode).length := by
    rw [length_flatMap_encode, Array.length_toList]
  have count : l.entries.size = read.size + rest.length := by
    rw [← Array.length_toList, parts, List.length_append, Array.length_toList]
  have complete : read.size * MemoryEntry.recordSize + MemoryEntry.recordSize ≤ l.toBytes.size := by
    rw [size_toBytes, size, count, MemoryEntry.recordSize]
    omega
  -- The induction is on the records that are still to be read.
  induction rest generalizing read with
  | nil =>
    rw [List.append_nil] at parts
    have closing : byteAt l.toBytes (read.size * MemoryEntry.recordSize + 1)
        = Resource.Kind.endMark := by
      have parts' : l.entries.toList = read.toList ++ [] := by rw [parts, List.append_nil]
      rw [place, toBytes_eq parts', byteAt_toArray, List.getD_append_right _ _ _ _ (by omega),
        Nat.add_sub_cancel_left]
      rfl
    rw [parseOn, dif_pos complete, if_pos closing, Array.toList_inj.1 parts]
  | cons e rest ih =>
    have inside : read.size < l.entries.size := by
      rw [count, List.length_cons]
      omega
    have here : l.entries[read.size] = e := by
      rw [← Array.getElem_toList]
      simp [parts]
    have entry := listed read.size inside
    rw [here] at entry
    have record : l.toBytes = (read.toList.flatMap MemoryEntry.encode
        ++ (e.encode ++ (rest.flatMap MemoryEntry.encode ++ endRecord))).toArray := by
      rw [toBytes_eq parts, List.flatMap_cons, List.append_assoc]
    have kind : byteAt l.toBytes (read.size * MemoryEntry.recordSize + 1) = e.kind.toByte := by
      rw [place, record, MemoryEntry.byteAt_record]
      rfl
    have decoded : MemoryEntry.decode read.size.toUInt16 l.toBytes
        (read.size * MemoryEntry.recordSize) = e := by
      rw [place, record, ← entry.id_eq]
      exact MemoryEntry.decode_encode _ _ e entry.canonical
    have few : ¬maxEntries ≤ read.size := by
      rw [size] at small
      omega
    have parts' : l.entries.toList = (read.push e).toList ++ rest := by
      rw [parts, Array.toList_push, List.append_assoc]
      rfl
    rw [parseOn, dif_pos complete, kind, if_neg entry.continues, if_neg few, decoded]
    refine ih (read.push e) parts' ?_ ?_ ?_
    · rw [length_flatMap_encode, Array.length_toList]
    · rw [count, Array.size_push, List.length_cons]
      omega
    · rw [size_toBytes, size, count, Array.size_push, List.length_cons, MemoryEntry.recordSize]
      omega

/-- **A memory list is read back from its table.** -/
theorem parse_toBytes (small : l.size ≤ maxEntries)
    (listed : ∀ i (inside : i < l.entries.size), l.entries[i].Listed i) :
    parse l.toBytes = .ok l := by
  rw [parse, parseOn_toBytes small listed l.entries.toList #[] rfl]
  rfl

end MemoryList

end Cinematic
