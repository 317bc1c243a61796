import Mathlib.Algebra.Group.Action.Defs
import Mathlib.Algebra.Order.BigOperators.Group.List
import Cinematic.Store.Library
import Cinematic.Proofs.MemoryList.Table
import Cinematic.Proofs.Packing.RoundTrip

/-!
# Banks

**What has been put into a bank is read from it** (`Cinematic.Library.openDirectory_bank`): a game
whose only bank holds some resources, packed one behind the other, and whose memory list says where
each of them is, opens and gives every resource back.

The memory list is all that the reader has. It tells a packed resource from one stored as it is by
the two sizes alone, and this is enough because a block that is no shorter than its data is just
these data (`Cinematic.Packing.pack_eq_self`). Offsets fit their field as long as there are no more
resources than ids, since the sizes do.
-/

namespace Cinematic

open Packing

namespace FileTree

variable {files : FileTree} {path : String} {content : Bytes}

/-- What can be read is a file. -/
theorem find_of_read (h : files.read path = .ok content) : files.find path = .ok (.file content) := by
  rw [read] at h
  split at h
  · next found =>
    cases h
    exact found
  · cases h
  · cases h

/-- **Bytes that a file has can be read from it**, none included. -/
theorem readRange_of_find (found : files.find path = .ok (.file content)) {start count : Nat}
    (inside : start + count ≤ content.size) :
    files.readRange path start count = .ok (Bytes.slice content start count) := by
  rw [readRange, found]
  by_cases none : count = 0
  · rw [none, Bytes.slice]
    simp
  · dsimp only
    rw [if_neg none, if_pos inside]

end FileTree

/-- A resource that is to be put into a bank. -/
structure Deposit where
  /-- What it holds. -/
  kind : Resource.Kind
  /-- The load state that the memory list will show. -/
  state : Resource.State
  /-- A priority. -/
  rank : UInt8
  /-- Its data. -/
  data : Bytes
deriving Repr, DecidableEq

namespace Deposit

/-- A resource that a memory list can describe. -/
structure Storable (d : Deposit) : Prop where
  /-- The data are no longer than a size field can say. -/
  small : d.data.size ≤ 0xffff
  canonical : Resource.Kind.ofByte d.kind.toByte = d.kind
  continues : d.kind.toByte ≠ Resource.Kind.endMark

instance (d : Deposit) : Decidable d.Storable :=
  decidable_of_iff
    (d.data.size ≤ 0xffff ∧ Resource.Kind.ofByte d.kind.toByte = d.kind ∧
      d.kind.toByte ≠ Resource.Kind.endMark)
    ⟨fun ⟨small, canonical, continues⟩ => ⟨small, canonical, continues⟩,
      fun ⟨small, canonical, continues⟩ => ⟨small, canonical, continues⟩⟩

/-- The bytes of a resource in the bank. -/
def stored (d : Deposit) : Bytes := pack d.data

/-- The number of the only bank. -/
def bankNumber : UInt8 := 1

variable (deposits : List Deposit)

/-- **The bank**: the resources, packed, one behind the other. -/
def bank : Bytes := (deposits.flatMap fun d => d.stored.toList).toArray

/-- Where a resource begins in the bank: behind those before it. -/
def offset (i : Nat) : Nat := ((deposits.take i).map fun d => d.stored.size).sum

/-- The entry of a resource in the memory list. -/
def entry (i : Nat) (d : Deposit) : MemoryEntry where
  id := i.toUInt16
  state := d.state
  kind := d.kind
  rank := d.rank
  bank := bankNumber
  bankOffset := (offset deposits i).toUInt32
  packedSize := d.stored.size.toUInt16
  unpackedSize := d.data.size.toUInt16

/-- **The memory list** that describes the bank. -/
def list : MemoryList := ⟨(deposits.mapIdx fun i d => d.entry deposits i).toArray⟩

variable {deposits}

/-! ### The bank -/

theorem Storable.size_stored_le {d : Deposit} (h : d.Storable) : d.stored.size ≤ 0xffff :=
  Nat.le_trans (size_pack_le d.data) h.small

/-- The bank, cut where a resource begins and where it ends. -/
theorem bank_eq {i : Nat} (inside : i < deposits.length) :
    bank deposits = (((deposits.take i).flatMap fun d => d.stored.toList)
      ++ (deposits[i].stored.toList
        ++ (deposits.drop (i + 1)).flatMap fun d => d.stored.toList)).toArray := by
  have cut : deposits.take i ++ deposits[i] :: deposits.drop (i + 1) = deposits := by
    rw [List.getElem_cons_drop, List.take_append_drop]
  conv_lhs => rw [bank, ← cut, List.flatMap_append, List.flatMap_cons]

theorem offset_eq_length (i : Nat) :
    offset deposits i = ((deposits.take i).flatMap fun d => d.stored.toList).length := by
  simp [offset, List.length_flatMap]

/-- **The bank holds every resource at its offset.** -/
theorem slice_bank {i : Nat} (inside : i < deposits.length) :
    Bytes.slice (bank deposits) (offset deposits i) deposits[i].stored.size
      = deposits[i].stored := by
  rw [Bytes.slice, bank_eq inside, offset_eq_length, List.extract_toArray, List.extract_eq_take_drop,
    Nat.add_sub_cancel_left, List.drop_left, ← Array.length_toList, List.take_left]

theorem offset_add_size_le {i : Nat} (inside : i < deposits.length) :
    offset deposits i + deposits[i].stored.size ≤ (bank deposits).size := by
  conv_rhs => rw [bank_eq inside, List.size_toArray, List.length_append, List.length_append]
  rw [offset_eq_length]
  have size : deposits[i].stored.toList.length = deposits[i].stored.size := Array.length_toList
  omega

/-! ### The memory list -/

@[simp] theorem size_list : (list deposits).size = deposits.length := by
  simp [list, MemoryList.size]

theorem getElem?_list {i : Nat} (inside : i < deposits.length) :
    (list deposits).entries[i]? = some (deposits[i].entry deposits i) := by
  simp [list, inside]

/-! ### Single resources -/

section Storable

variable {d : Deposit} (h : d.Storable)

include h

theorem Storable.toNat_packedSize (i : Nat) :
    (d.entry deposits i).packedSize.toNat = d.stored.size :=
  UInt16.toNat_ofNat_of_lt' (Nat.lt_succ_of_le h.size_stored_le)

theorem Storable.toNat_unpackedSize (i : Nat) :
    (d.entry deposits i).unpackedSize.toNat = d.data.size :=
  UInt16.toNat_ofNat_of_lt' (Nat.lt_succ_of_le h.small)

/-- **The sizes tell whether a resource is packed**, and either way its data are what its bytes stand
for. -/
theorem Storable.expand_stored (id : UInt16) (i : Nat) :
    Store.expand id (d.entry deposits i) d.stored = .ok d.data := by
  rw [Store.expand, h.toNat_packedSize, h.toNat_unpackedSize]
  by_cases packed : (d.entry deposits i).isPacked = true
  · -- a block of another length than its data is shorter, and expands where it is read to
    have differ : d.stored.size ≠ d.data.size := fun same =>
      of_decide_eq_true packed (UInt16.toNat_inj.1
        ((h.toNat_packedSize i).trans (same.trans (h.toNat_unpackedSize i).symm)))
    have shorter : (pack d.data).size < d.data.size :=
      Nat.lt_of_le_of_ne (size_pack_le d.data) differ
    rw [if_pos packed, stored]
    dsimp only
    rw [unpackInPlace_resize_pack shorter]
  · -- a block of the length of its data is just these data
    have same : (d.entry deposits i).packedSize = (d.entry deposits i).unpackedSize := by
      simpa [MemoryEntry.isPacked] using packed
    have sizes : (pack d.data).size = d.data.size := by
      rw [← h.toNat_unpackedSize i, ← same, h.toNat_packedSize i, stored]
    rw [if_neg packed, stored, pack_eq_self sizes]

end Storable

/-- The file of the bank. -/
def bankFile : String := MemoryEntry.bankName bankNumber

theorem bankFile_eq : bankFile = "BANK01" := by decide +kernel

/-! ### Reading -/

section Reading

variable {files : FileTree} {dir : String} (storable : ∀ d ∈ deposits, d.Storable)
  (few : deposits.length ≤ 65536)

include storable few

/-- **Offsets fit their field**, since there are no more resources than ids and none is longer than a
size field can say. -/
theorem offset_lt {i : Nat} (inside : i < deposits.length) : offset deposits i < 2 ^ 32 := by
  have sizes : ∀ n ∈ (deposits.take i).map fun d => d.stored.size, n ≤ 0xffff := by
    intro n member
    obtain ⟨d, taken, rfl⟩ := List.mem_map.1 member
    exact (storable d (List.mem_of_mem_take taken)).size_stored_le
  have total : offset deposits i ≤ i * 0xffff := by
    refine (List.sum_le_card_nsmul _ _ sizes).trans ?_
    rw [List.length_map, List.length_take, smul_eq_mul]
    exact Nat.mul_le_mul_right _ (Nat.min_le_left _ _)
  omega

/-- **The memory list is read back** from its table. -/
theorem parse_list : MemoryList.parse (list deposits).toBytes = .ok (list deposits) := by
  refine MemoryList.parse_toBytes (by rw [size_list]; exact few) fun i inside => ?_
  have inside' : i < deposits.length := by
    rwa [← MemoryList.size, size_list] at inside
  have here : (list deposits).entries[i] = deposits[i].entry deposits i :=
    Option.some.inj ((Array.getElem?_eq_getElem inside).symm.trans (getElem?_list inside'))
  have member := storable deposits[i] (List.getElem_mem inside')
  rw [here]
  exact ⟨rfl, member.canonical, member.continues⟩

/-- **The bytes of a resource are got from the bank.** -/
theorem readPacked_bank
    (banked : files.read (FileTree.join dir bankFile) = .ok (bank deposits)) {s : Store}
    (at_dir : s.dir = dir) {i : Nat} (inside : i < deposits.length) :
    s.readPacked files (deposits[i].entry deposits i) = .ok deposits[i].stored := by
  have offset_eq : (deposits[i].entry deposits i).bankOffset.toNat = offset deposits i :=
    UInt32.toNat_ofNat_of_lt' (offset_lt storable few inside)
  have size_eq : (deposits[i].entry deposits i).packedSize.toNat = deposits[i].stored.size :=
    (storable deposits[i] (List.getElem_mem inside)).toNat_packedSize i
  have path : s.bankPath (deposits[i].entry deposits i) = FileTree.join dir bankFile := by
    rw [Store.bankPath, at_dir]
    rfl
  have found := FileTree.find_of_read banked
  have bytes : files.readRange (FileTree.join dir bankFile) (offset deposits i)
      deposits[i].stored.size = .ok deposits[i].stored := by
    rw [FileTree.readRange_of_find found (offset_add_size_le inside), slice_bank inside]
  rw [Store.readPacked, path, offset_eq, size_eq, bytes]

/-- **Every resource is read back.** -/
theorem read_bank
    (banked : files.read (FileTree.join dir bankFile) = .ok (bank deposits)) {i : Nat}
    (inside : i < deposits.length) :
    (Store.ofList dir (list deposits)).read files i.toUInt16 = .ok deposits[i].data := by
  have id_eq : i.toUInt16.toNat = i :=
    UInt16.toNat_ofNat_of_lt' (Nat.lt_of_lt_of_le inside few)
  have known : (Store.ofList dir (list deposits)).entry i.toUInt16
      = .ok (deposits[i].entry deposits i) := by
    rw [Store.entry, Store.ofList, MemoryList.get?, id_eq, getElem?_list inside]
  have expanded : Store.expand i.toUInt16 (deposits[i].entry deposits i) deposits[i].stored
      = .ok deposits[i].data :=
    (storable deposits[i] (List.getElem_mem inside)).expand_stored i.toUInt16 i
  rw [Store.read, known]
  change (Store.readPacked _ files _ >>= _) = _
  rw [readPacked_bank storable few banked rfl inside]
  exact expanded

end Reading

end Deposit

/-- A directory opens if it has a table that can be read as a memory list. -/
theorem Library.openDirectory_eq_ok {files : FileTree} {dir : String} {table : Bytes}
    {list : MemoryList} (listed : files.read (FileTree.join dir memoryListFile) = .ok table)
    (parsed : MemoryList.parse table = .ok list) :
    openDirectory files dir
      = .ok ⟨.ofList dir list, files, #[Log.memoryListLoaded list.size dir]⟩ := by
  rw [openDirectory, listed]
  dsimp only
  rw [parsed]

/-- **What has been put into a bank is read from it.** The directory opens with as many entries as
there are resources, each of them is read back under its place in the list, and no offset is too
large for its field. -/
theorem Library.openDirectory_bank (files : FileTree) (dir : String) (deposits : List Deposit)
    (storable : ∀ d ∈ deposits, d.Storable) (few : deposits.length ≤ 65536)
    (listed : files.read (FileTree.join dir "MEMLIST.BIN") = .ok (Deposit.list deposits).toBytes)
    (banked : files.read (FileTree.join dir "BANK01") = .ok (Deposit.bank deposits)) :
    (∀ i < deposits.length, Deposit.offset deposits i < 2 ^ 32) ∧
      ∃ library, openDirectory files dir = .ok library ∧
        library.store.list.size = deposits.length ∧
        ∀ i (inside : i < deposits.length),
          library.store.read library.files i.toUInt16 = .ok deposits[i].data := by
  rw [← Deposit.bankFile_eq] at banked
  refine ⟨fun i inside => Deposit.offset_lt storable few inside, ?_⟩
  have opened := openDirectory_eq_ok listed (Deposit.parse_list storable few)
  exact ⟨_, opened, Deposit.size_list, fun i inside =>
    Deposit.read_bank storable few banked inside⟩

/-- A directory with a resource that becomes shorter, one that does not, and an empty one. -/
theorem Library.openDirectory_bank_game :
    let deposits : List Deposit :=
      [⟨.ofByte 0, .ofByte 0, 0, Array.replicate 40 7⟩, ⟨.ofByte 1, .ofByte 0, 3, #[1, 2, 3]⟩,
        ⟨.ofByte 2, .ofByte 0, 0, #[]⟩]
    let files : FileTree := ⟨[(["game"], .directory),
      (["MEMLIST.BIN", "game"], .file (Deposit.list deposits).toBytes),
      (["BANK01", "game"], .file (Deposit.bank deposits))]⟩
    ∃ library, openDirectory files "game" = .ok library ∧
      library.store.read library.files 0 = .ok (Array.replicate 40 7) ∧
      library.store.read library.files 2 = .ok #[] := by
  intro deposits files
  have storable : ∀ d ∈ deposits, d.Storable := by decide
  have listed : files.read (FileTree.join "game" "MEMLIST.BIN")
      = .ok (Deposit.list deposits).toBytes := by decide +kernel
  have banked : files.read (FileTree.join "game" "BANK01") = .ok (Deposit.bank deposits) := by
    decide +kernel
  obtain ⟨-, library, opened, -, all⟩ :=
    openDirectory_bank files "game" deposits storable (by decide) listed banked
  exact ⟨library, opened, all 0 (by decide), all 2 (by decide)⟩

end Cinematic
