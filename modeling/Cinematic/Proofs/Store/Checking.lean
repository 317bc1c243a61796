import Cinematic.Proofs.Store.Bank

/-!
# Checking a block before it is stored

A block is checked against its data before it is written, so that no bank ever holds a block that
cannot be read from it. The check does by itself what the reader of a bank does with the block and
the two sizes of its entry, and **as long as the block is no longer than the data, the two agree**:
a block passes just if its data are read back, and one that does not pass fails for the same reason
(`Cinematic.Packing.verify_eq_recover`).

They part where the block is longer. The reader takes it for a packed one, because the sizes
differ, and refuses it; the check takes it for one that is stored as it is, cuts it, and passes it
if it begins with the data (`Cinematic.Packing.verify_iff_read`,
`Cinematic.Packing.verify_unreadable`). Packing never makes such a block
(`Cinematic.Packing.size_pack_le`), and only what it has made is checked.
-/

namespace Cinematic

open Packing

/-- Bytes that are found in a file are read from it. If there are none, it does not matter where they
are looked for. -/
theorem FileTree.readRange_of_slice {files : FileTree} {path : String} {content bytes : Bytes}
    {start : Nat} (found : files.find path = .ok (.file content))
    (cut : Bytes.slice content start bytes.size = bytes) :
    files.readRange path start bytes.size = .ok bytes := by
  by_cases none : bytes.size = 0
  · rw [readRange, found]
    dsimp only
    rw [if_pos none, Array.size_eq_zero_iff.1 none]
  · have inside : start + bytes.size ≤ content.size := by
      have size := congrArg Array.size cut
      rw [Bytes.slice, Array.size_extract] at size
      omega
    rw [readRange_of_find found inside, cut]

namespace Packing

/-- **What the reader of a bank makes of a block** whose data are to have some length. -/
def recover (block : Bytes) (length : Nat) : Except UnpackError Bytes :=
  if block.size = length then .ok block
  else
    match unpackInPlace (block.resize length) block.size length with
    | (data, .ok ()) => .ok data
    | (_, .error cause) => .error cause

/-- What is said of a block whose data have been recovered, or could not be. -/
def judge (data : Bytes) : Except UnpackError Bytes → Except VerifyError Unit
  | .ok recovered => if recovered = data then .ok () else .error .mismatch
  | .error cause => .error (.unpack cause)

variable {block data : Bytes} {length : Nat}

theorem judge_eq_ok_iff {outcome : Except UnpackError Bytes} :
    judge data outcome = .ok () ↔ outcome = .ok data := by
  rcases outcome with cause | recovered
  · exact ⟨nofun, nofun⟩
  · rw [judge]
    split
    · next same => exact ⟨fun _ => congrArg _ same, fun _ => rfl⟩
    · next other => exact ⟨nofun, fun same => absurd (Except.ok.inj same) other⟩

theorem judge_eq_unpack_iff {outcome : Except UnpackError Bytes} {cause : UnpackError} :
    judge data outcome = .error (.unpack cause) ↔ outcome = .error cause := by
  rcases outcome with cause' | recovered
  · constructor
    · rintro ⟨⟩
      rfl
    · rintro ⟨⟩
      rfl
  · rw [judge]
    split
    · exact ⟨nofun, nofun⟩
    · exact ⟨nofun, nofun⟩

/-- **The check recovers the data as the reader does**, if the block is no longer than they are. -/
theorem verify_eq_recover (le : block.size ≤ data.size) :
    verify block data = judge data (recover block data.size) := by
  rw [verify, recover]
  rcases Nat.lt_or_eq_of_le le with shorter | same
  · rw [if_pos shorter, if_neg (Nat.ne_of_lt shorter)]
    rcases unpackInPlace (block.resize data.size) block.size data.size with ⟨result, cause | ⟨⟩⟩
    · rfl
    · rfl
  · rw [if_neg (Nat.not_lt.2 (Nat.le_of_eq same.symm)), if_pos same, ← same, Bytes.resize_size]
    rfl

/-- **A block that is longer than its data passes if it begins with them.** -/
theorem verify_of_size_lt (longer : data.size < block.size) :
    verify block data = if block.extract 0 data.size = data then .ok () else .error .mismatch := by
  have cut : block.resize data.size = block.extract 0 data.size := by
    rw [Bytes.resize, Nat.sub_eq_zero_of_le (Nat.le_of_lt longer)]
    exact Array.append_empty
  rw [verify, if_neg (Nat.not_lt.2 (Nat.le_of_lt longer)), cut]

/-- Why a block that is longer than its data is refused. -/
def excess (block : Bytes) (length : Nat) : UnpackError :=
  if block.size < trailerSize then .truncated block.size else .oversized block.size length

/-- **Nothing is recovered from a block that is longer than its data.** -/
theorem recover_of_size_lt (longer : length < block.size) :
    recover block length = .error (excess block length) := by
  have roomy : ¬ (block.resize length).size < length := by
    rw [Bytes.size_resize]
    exact Nat.lt_irrefl _
  have refused : unpackInPlace (block.resize length) block.size length =
      (block.resize length, .error (excess block length)) := by
    rw [unpackInPlace, if_neg roomy, if_pos longer, excess]
    split
    · rfl
    · rfl
  rw [recover, if_neg (Nat.ne_of_gt longer), refused]

end Packing

/-- **A resource whose bank has a block for it**, and whose data are to have some length: the sizes
of its entry say so, and the block is in the bank where the entry says. -/
def Store.Banked (s : Store) (files : FileTree) (id : UInt16) (block : Bytes) (length : Nat) : Prop :=
  ∃ e content, s.entry id = .ok e ∧ e.packedSize.toNat = block.size ∧
    e.unpackedSize.toNat = length ∧ files.read (s.bankPath e) = .ok content ∧
    Bytes.slice content e.bankOffset.toNat block.size = block

namespace Store.Banked

section Reading

variable {s : Store} {files : FileTree} {id : UInt16} {block : Bytes} {length : Nat}
  (banked : s.Banked files id block length)
include banked

/-- **The data of such a resource are recovered from the block.** -/
theorem read_eq : s.read files id = (recover block length).mapError (.unpack id) := by
  obtain ⟨e, content, known, packed, unpacked, bank, cut⟩ := banked
  have bytes : s.readPacked files e = .ok block := by
    rw [readPacked, packed, FileTree.readRange_of_slice (FileTree.find_of_read bank) cut]
  have expanded : expand id e block = (recover block length).mapError (.unpack id) := by
    have differ : e.isPacked = true ↔ ¬ block.size = length := by
      rw [MemoryEntry.isPacked, decide_eq_true_iff, ← packed, ← unpacked, UInt16.toNat_inj]
    rw [expand, recover, packed, unpacked]
    by_cases same : block.size = length
    · rw [if_pos same, if_neg fun isPacked => differ.1 isPacked same]
      rfl
    · rw [if_neg same, if_pos (differ.2 same)]
      dsimp only
      rcases unpackInPlace (block.resize length) block.size length with ⟨result, cause | ⟨⟩⟩
      · rfl
      · rfl
  rw [read, known]
  change (readPacked s files e >>= _) = _
  rw [bytes]
  exact expanded

theorem read_eq_ok_iff {data : Bytes} :
    s.read files id = .ok data ↔ recover block length = .ok data := by
  rw [banked.read_eq]
  rcases recover block length with cause | recovered
  · exact ⟨nofun, nofun⟩
  · exact ⟨fun same => congrArg _ (Except.ok.inj same), fun same => congrArg _ (Except.ok.inj same)⟩

theorem read_eq_error_iff {cause : UnpackError} :
    s.read files id = .error (.unpack id cause) ↔ recover block length = .error cause := by
  rw [banked.read_eq]
  rcases recover block length with cause' | recovered
  · constructor
    · rintro ⟨⟩
      rfl
    · rintro ⟨⟩
      rfl
  · exact ⟨nofun, nofun⟩

end Reading

/-- **Any block can be in a bank**, with any length for its data, if both sizes fit their fields. -/
theorem exists_of_le {block : Bytes} {length : Nat} (small : block.size ≤ 0xffff)
    (short : length ≤ 0xffff) : ∃ s files id, Banked s files id block length := by
  let e : MemoryEntry :=
    ⟨0, .ofByte 0, .ofByte 0, 0, 1, 0, block.size.toUInt16, length.toUInt16⟩
  have path : (ofList "" ⟨#[e]⟩).bankPath e = "BANK01" := by
    change FileTree.join "" (MemoryEntry.bankName 1) = _
    decide +kernel
  have routed : FileTree.routeOf "BANK01" = .ok ⟨[], ["BANK01"], false⟩ := by decide +kernel
  refine ⟨ofList "" ⟨#[e]⟩, ⟨[(["BANK01"], .file block)]⟩, 0, e, block, rfl, ?_, ?_, ?_, ?_⟩
  · exact UInt16.toNat_ofNat_of_lt' (Nat.lt_succ_of_le small)
  · exact UInt16.toNat_ofNat_of_lt' (Nat.lt_succ_of_le short)
  · rw [path, FileTree.read, FileTree.find, routed]
    rfl
  · change Array.extract block 0 (0 + block.size) = block
    rw [Nat.zero_add, Array.extract_size]

end Store.Banked

namespace Packing

/-- **A block that is no longer than its data passes the check just if they are read back.** Let a
bank have a block for some data, and an entry with the sizes of both; there is one if the sizes fit
their fields. The data are read back if the block passes and is no longer than they are, and in no
other case, and a block that is no longer and cannot be expanded fails for the same reason in both.
A block that is longer is never read, but it passes the check if it begins with the data. -/
theorem verify_iff_read (block data : Bytes) (small : block.size ≤ 0xffff)
    (short : data.size ≤ 0xffff) :
    (∃ s files id, Store.Banked s files id block data.size) ∧
      ∀ s files id, Store.Banked s files id block data.size →
        (s.read files id = .ok data ↔ block.size ≤ data.size ∧ verify block data = .ok ()) ∧
        (block.size ≤ data.size → ∀ cause,
          s.read files id = .error (.unpack id cause) ↔ verify block data = .error (.unpack cause)) ∧
        (data.size < block.size → s.read files id = .error (.unpack id (excess block data.size)) ∧
          (verify block data = .ok () ↔ block.extract 0 data.size = data)) := by
  refine ⟨Store.Banked.exists_of_le small short, fun s files id banked => ⟨?_, ?_, ?_⟩⟩
  · rw [banked.read_eq_ok_iff]
    rcases Nat.lt_or_ge data.size block.size with longer | le
    · rw [recover_of_size_lt longer]
      exact ⟨nofun, fun passed => absurd passed.1 (Nat.not_le.2 longer)⟩
    · rw [verify_eq_recover le, judge_eq_ok_iff]
      exact (and_iff_right le).symm
  · intro le cause
    rw [banked.read_eq_error_iff, verify_eq_recover le, judge_eq_unpack_iff]
  · intro longer
    refine ⟨banked.read_eq_error_iff.2 (recover_of_size_lt longer), ?_⟩
    rw [verify_of_size_lt longer]
    split
    · next begins => exact iff_of_true rfl begins
    · next other => exact iff_of_false nofun other

/-- A block for forty equal bytes, and the same block with its first byte changed. -/
theorem verify_iff_read_damaged :
    let data : Bytes := Array.replicate 40 7
    let block : Bytes :=
      #[0x80, 0x06, 0x47, 0xc0, 0, 0, 0, 0x10, 0x80, 0x06, 0x47, 0xd0, 0, 0, 0, 40]
    let damaged : Bytes := block.setIfInBounds 0 1
    (∃ s files id, Store.Banked s files id block data.size ∧ s.read files id = .ok data) ∧
      ∃ s files id, Store.Banked s files id damaged data.size ∧
        s.read files id = .error (.unpack id (.badReference 38 128)) := by
  intro data block damaged
  have passed : verify block data = .ok () := by decide +kernel
  have failed : verify damaged data = .error (.unpack (.badReference 38 128)) := by decide +kernel
  constructor
  · obtain ⟨⟨s, files, id, banked⟩, agree⟩ := verify_iff_read block data (by decide) (by decide)
    exact ⟨s, files, id, banked, (agree s files id banked).1.2 ⟨by decide, passed⟩⟩
  · obtain ⟨⟨s, files, id, banked⟩, agree⟩ := verify_iff_read damaged data (by decide) (by decide)
    exact ⟨s, files, id, banked, ((agree s files id banked).2.1 (by decide) _).2 failed⟩

/-- **A block that passes and cannot be read.** It begins with the four bytes that it is to stand for,
and goes on. There is a bank that has it, and from none that has it are they read. -/
theorem verify_unreadable :
    let data : Bytes := #[1, 2, 3, 4]
    let block : Bytes := data ++ Array.replicate 12 0
    let e : MemoryEntry := ⟨0, .ofByte 0, .ofByte 0, 0, 1, 0, 16, 4⟩
    let bank : FileTree := ⟨[(["game"], .directory), (["BANK01", "game"], .file block)]⟩
    (Store.ofList "game" ⟨#[e]⟩).Banked bank 0 block data.size ∧ verify block data = .ok () ∧
      ∀ s files id, Store.Banked s files id block data.size →
        s.read files id = .error (.unpack id (.oversized 16 4)) := by
  intro data block e bank
  refine ⟨⟨e, block, rfl, by decide, by decide, by decide +kernel, by decide⟩, by decide, ?_⟩
  intro s files id banked
  exact banked.read_eq_error_iff.2 (recover_of_size_lt (by decide))

end Packing

end Cinematic
