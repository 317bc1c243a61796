import Cinematic.Proofs.Packing.Containment
import Cinematic.Proofs.Store.Soundness

/-!
# What reading a resource comes to

Reading a resource has **five ends and no other** (`Cinematic.Store.Reading`): there is no such
resource; its bank cannot be read; the bank ends before the resource does; the bytes of the resource
are its data; or they are expanded, with whatever comes of it. Which of them it is depends on the
entry and the bank alone, and on nothing that is in memory.

The sizes of an entry are any two numbers. A resource whose packed size exceeds the other is cut
before it is expanded, and always refused then; one without any packed bytes does not even look into
its bank, but the bank must be there. Whatever is read in the end is as long as the entry says.
-/

namespace Cinematic

open Packing

namespace Store

/-- **The bank of a resource as the resource sees it**: its content, or why there is none. To a
resource without packed bytes a directory is as good as an empty file. -/
def bankOf (s : Store) (files : FileTree) (e : MemoryEntry) : Except OsError Bytes :=
  match files.find (s.bankPath e) with
  | .error cause => .error cause
  | .ok (.file content) => .ok content
  | .ok .directory => if e.packedSize.toNat = 0 then .ok #[] else .error .isDirectory

/-- The bank ends before the resource does. -/
def EndsEarly (e : MemoryEntry) (bank : Bytes) : Prop :=
  0 < e.packedSize.toNat ∧ bank.size < e.bankOffset.toNat + e.packedSize.toNat

/-- The bytes of a resource in its bank. -/
def bytesOf (e : MemoryEntry) (bank : Bytes) : Bytes :=
  bank.slice e.bankOffset.toNat e.packedSize.toNat

/-- What expanding the bytes of a resource leaves, in a buffer that is as long as its data, and how
it ends. -/
def expanded (e : MemoryEntry) (bank : Bytes) : Bytes × Except UnpackError Unit :=
  unpackInPlace ((bytesOf e bank).resize e.unpackedSize.toNat) e.packedSize.toNat
    e.unpackedSize.toNat

/-- **How reading a resource can end.** -/
inductive Reading (s : Store) (files : FileTree) (id : UInt16) : Except StoreError Bytes → Prop
  /-- There is no such resource. -/
  | unknown (beyond : s.list.size ≤ id.toNat) : Reading s files id (.error (.unknownResource id))
  /-- Its bank cannot be read. -/
  | unreadable {e : MemoryEntry} {cause : OsError} (known : s.list.get? id = some e)
    (missing : s.bankOf files e = .error cause) :
    Reading s files id (.error (.io (s.bankPath e) cause))
  /-- Its bank ends too early. -/
  | short {e : MemoryEntry} {bank : Bytes} (known : s.list.get? id = some e)
    (here : s.bankOf files e = .ok bank) (early : EndsEarly e bank) :
    Reading s files id (.error (.shortBank e.id e.bankFile))
  /-- Its bytes are the data. -/
  | stored {e : MemoryEntry} {bank : Bytes} (known : s.list.get? id = some e)
    (here : s.bankOf files e = .ok bank) (whole : ¬EndsEarly e bank)
    (same : e.packedSize = e.unpackedSize) : Reading s files id (.ok (bytesOf e bank))
  /-- Its bytes are expanded to the data. -/
  | unpacked {e : MemoryEntry} {bank : Bytes} (known : s.list.get? id = some e)
    (here : s.bankOf files e = .ok bank) (whole : ¬EndsEarly e bank)
    (differ : e.packedSize ≠ e.unpackedSize) (ok : (expanded e bank).2 = .ok ()) :
    Reading s files id (.ok (expanded e bank).1)
  /-- Its bytes cannot be expanded. -/
  | refused {e : MemoryEntry} {bank : Bytes} {cause : UnpackError}
    (known : s.list.get? id = some e) (here : s.bankOf files e = .ok bank)
    (whole : ¬EndsEarly e bank) (differ : e.packedSize ≠ e.unpackedSize)
    (failed : (expanded e bank).2 = .error cause) :
    Reading s files id (.error (.unpack id cause))

variable {s : Store} {files : FileTree} {id : UInt16} {e : MemoryEntry} {bank : Bytes}

theorem size_bytesOf (whole : ¬EndsEarly e bank) : (bytesOf e bank).size = e.packedSize.toNat := by
  rw [EndsEarly] at whole
  rw [bytesOf, Bytes.slice, Array.size_extract]
  omega

/-! ### Packed bytes -/

theorem bytesOf_of_empty (none : e.packedSize.toNat = 0) : bytesOf e bank = #[] := by
  refine Array.eq_empty_of_size_eq_zero ?_
  rw [size_bytesOf fun early => Nat.ne_of_gt early.1 none, none]

/-- A resource can read its bank if it is a file, or if nothing is to be read and it is there. -/
theorem bankOf_eq_ok (here : s.bankOf files e = .ok bank) :
    files.find (s.bankPath e) = .ok (.file bank) ∨
      files.find (s.bankPath e) = .ok .directory ∧ e.packedSize.toNat = 0 := by
  rw [bankOf] at here
  rcases found : files.find (s.bankPath e) with cause | content | _
  · rw [found] at here
    cases here
  · rw [found] at here
    cases here
    exact Or.inl rfl
  · rw [found] at here
    dsimp only at here
    split at here
    · next none => exact Or.inr ⟨rfl, none⟩
    · cases here

theorem bankOf_eq_error {cause : OsError} (missing : s.bankOf files e = .error cause) :
    files.find (s.bankPath e) = .error cause ∨
      files.find (s.bankPath e) = .ok .directory ∧ e.packedSize.toNat ≠ 0 ∧
        cause = .isDirectory := by
  rw [bankOf] at missing
  rcases found : files.find (s.bankPath e) with cause' | content | _
  · rw [found] at missing
    cases missing
    exact Or.inl rfl
  · rw [found] at missing
    cases missing
  · rw [found] at missing
    dsimp only at missing
    split at missing
    · cases missing
    · next some =>
      cases missing
      exact Or.inr ⟨rfl, some, rfl⟩

theorem readPacked_of_unreadable {cause : OsError} (missing : s.bankOf files e = .error cause) :
    s.readPacked files e = .error (.io (s.bankPath e) cause) := by
  rw [readPacked, FileTree.readRange]
  rcases bankOf_eq_error missing with found | ⟨found, some, rfl⟩
  · rw [found]
  · rw [found]
    dsimp only
    rw [if_neg some]

theorem readPacked_of_short (here : s.bankOf files e = .ok bank) (early : EndsEarly e bank) :
    s.readPacked files e = .error (.shortBank e.id e.bankFile) := by
  have some : ¬e.packedSize.toNat = 0 := Nat.ne_of_gt early.1
  rw [readPacked, FileTree.readRange]
  rcases bankOf_eq_ok here with found | ⟨-, none⟩
  · rw [found]
    dsimp only
    rw [if_neg some, if_neg (Nat.not_le.2 early.2)]
  · exact absurd none some

theorem readPacked_of_whole (here : s.bankOf files e = .ok bank) (whole : ¬EndsEarly e bank) :
    s.readPacked files e = .ok (bytesOf e bank) := by
  rw [EndsEarly] at whole
  rw [readPacked, FileTree.readRange]
  by_cases none : e.packedSize.toNat = 0
  · -- nothing is read, whatever stands there
    rw [bytesOf_of_empty none]
    rcases bankOf_eq_ok here with found | ⟨found, -⟩
    · rw [found]
      dsimp only
      rw [if_pos none]
    · rw [found]
      dsimp only
      rw [if_pos none]
  · rcases bankOf_eq_ok here with found | ⟨-, none'⟩
    · rw [found]
      dsimp only
      rw [if_neg none, if_pos (by omega)]
      rfl
    · exact absurd none' none

/-! ### Data -/

theorem expand_of_same (same : e.packedSize = e.unpackedSize) (bytes : Bytes) :
    expand id e bytes = .ok bytes := by
  have stored : ¬e.isPacked = true := by simp [MemoryEntry.isPacked, same]
  rw [expand, if_neg stored]

theorem expand_of_ok (differ : e.packedSize ≠ e.unpackedSize) (ok : (expanded e bank).2 = .ok ()) :
    expand id e (bytesOf e bank) = .ok (expanded e bank).1 := by
  have packed : e.isPacked = true := by simpa [MemoryEntry.isPacked] using differ
  have result : expanded e bank = ((expanded e bank).1, .ok ()) := Prod.ext rfl ok
  rw [expanded] at result
  rw [expand, if_pos packed]
  dsimp only
  rw [result]
  rfl

theorem expand_of_error {cause : UnpackError} (differ : e.packedSize ≠ e.unpackedSize)
    (failed : (expanded e bank).2 = .error cause) :
    expand id e (bytesOf e bank) = .error (.unpack id cause) := by
  have packed : e.isPacked = true := by simpa [MemoryEntry.isPacked] using differ
  have result : expanded e bank = ((expanded e bank).1, .error cause) := Prod.ext rfl failed
  rw [expanded] at result
  rw [expand, if_pos packed]
  dsimp only
  rw [result]

/-! ### Reading -/

theorem read_of_unknown (beyond : s.list.size ≤ id.toNat) :
    s.read files id = .error (.unknownResource id) := by
  have none : s.list.get? id = none := Array.getElem?_eq_none_iff.2 beyond
  rw [read, entry, none]
  rfl

theorem read_of_known (known : s.list.get? id = some e) :
    s.read files id = s.readPacked files e >>= expand id e := by
  rw [read, entry, known]
  rfl

/-- **Reading a resource ends in one of the ways there are.** -/
theorem reading (s : Store) (files : FileTree) (id : UInt16) :
    Reading s files id (s.read files id) := by
  cases known : s.list.get? id with
  | none =>
    have beyond : s.list.size ≤ id.toNat := Array.getElem?_eq_none_iff.1 known
    rw [read_of_unknown beyond]
    exact .unknown beyond
  | some e =>
    rw [read_of_known known]
    cases here : s.bankOf files e with
    | error cause =>
      rw [readPacked_of_unreadable here]
      exact .unreadable known here
    | ok bank =>
      by_cases early : EndsEarly e bank
      · rw [readPacked_of_short here early]
        exact .short known here early
      · rw [readPacked_of_whole here early]
        change Reading s files id (expand id e (bytesOf e bank))
        by_cases same : e.packedSize = e.unpackedSize
        · rw [expand_of_same same]
          exact .stored known here early same
        · cases result : (expanded e bank).2 with
          | ok _ =>
            rw [expand_of_ok same result]
            exact .unpacked known here early same result
          | error cause =>
            rw [expand_of_error same result]
            exact .refused known here early same result

/-- A resource is unknown just if its id is not below the number of entries. -/
theorem read_eq_unknown_iff {i : UInt16} :
    s.read files id = .error (.unknownResource i) ↔ i = id ∧ s.list.size ≤ id.toNat := by
  constructor
  · intro outcome
    have ends := reading s files id
    rw [outcome] at ends
    obtain ⟨beyond⟩ := ends
    exact ⟨rfl, beyond⟩
  · rintro ⟨rfl, beyond⟩
    exact read_of_unknown beyond

section Known

variable (known : s.list.get? id = some e)
include known

/-- Of a known resource the bank is missing just if it cannot be read. -/
theorem read_eq_io_iff {path : String} {cause : OsError} :
    s.read files id = .error (.io path cause) ↔
      path = s.bankPath e ∧ s.bankOf files e = .error cause := by
  constructor
  · intro outcome
    have ends := reading s files id
    rw [outcome] at ends
    rcases ends with _ | ⟨known', missing⟩
    cases known.symm.trans known'
    exact ⟨rfl, missing⟩
  · rintro ⟨rfl, missing⟩
    rw [read_of_known known, readPacked_of_unreadable missing]
    rfl

/-- Whatever is read is as long as the entry says. -/
theorem size_of_read {data : Bytes} (given : s.read files id = .ok data) :
    data.size = e.unpackedSize.toNat := by
  have ends := reading s files id
  rw [given] at ends
  rcases ends with _ | _ | _ | ⟨known', here, whole, same⟩ | ⟨known', here, whole, differ, ok⟩
  · cases known.symm.trans known'
    rw [size_bytesOf whole, same]
  · cases known.symm.trans known'
    rw [expanded, size_unpackInPlace, Bytes.size_resize]

variable (here : s.bankOf files e = .ok bank)
include here

/-- The bank is too short just if it ends before the bytes of the resource do. -/
theorem read_eq_short_iff {i : UInt16} {name : String} :
    s.read files id = .error (.shortBank i name) ↔
      i = e.id ∧ name = e.bankFile ∧ EndsEarly e bank := by
  constructor
  · intro outcome
    have ends := reading s files id
    rw [outcome] at ends
    rcases ends with _ | _ | ⟨known', here', early⟩
    cases known.symm.trans known'
    cases here.symm.trans here'
    exact ⟨rfl, rfl, early⟩
  · rintro ⟨rfl, rfl, early⟩
    rw [read_of_known known, readPacked_of_short here early]
    rfl

variable (whole : ¬EndsEarly e bank)
include whole

theorem read_of_whole : s.read files id = expand id e (bytesOf e bank) := by
  rw [read_of_known known, readPacked_of_whole here whole]
  rfl

/-- **Expansion decides.** What is read of a packed resource is what its bytes expand to. -/
theorem read_eq_ok_iff (differ : e.packedSize ≠ e.unpackedSize) {data : Bytes} :
    s.read files id = .ok data ↔ expanded e bank = (data, .ok ()) := by
  rw [read_of_whole known here whole]
  cases result : (expanded e bank).2 with
  | ok _ =>
    rw [expand_of_ok differ result]
    constructor
    · rintro ⟨⟩
      exact Prod.ext rfl result
    · intro same
      rw [same]
  | error cause =>
    rw [expand_of_error differ result]
    constructor
    · rintro ⟨⟩
    · intro same
      rw [same] at result
      cases result

theorem read_eq_unpack_iff (differ : e.packedSize ≠ e.unpackedSize) {i : UInt16}
    {cause : UnpackError} :
    s.read files id = .error (.unpack i cause) ↔ i = id ∧ (expanded e bank).2 = .error cause := by
  rw [read_of_whole known here whole]
  cases result : (expanded e bank).2 with
  | ok _ =>
    rw [expand_of_ok differ result]
    constructor
    · rintro ⟨⟩
    · rintro ⟨-, ⟨⟩⟩
  | error cause' =>
    rw [expand_of_error differ result]
    constructor
    · rintro ⟨⟩
      exact ⟨rfl, rfl⟩
    · rintro ⟨rfl, ⟨⟩⟩
      rfl

/-- **A resource that is longer packed than unpacked is refused**, whatever its bytes are. -/
theorem read_of_longer (longer : e.unpackedSize < e.packedSize) :
    ∃ cause, s.read files id = .error (.unpack id cause) := by
  have exceeds : e.unpackedSize.toNat < e.packedSize.toNat := UInt16.lt_iff_toNat_lt.1 longer
  have differ : e.packedSize ≠ e.unpackedSize := fun same => by
    rw [same] at exceeds
    omega
  have failed : ∃ cause, (expanded e bank).2 = .error cause := by
    have roomy : ¬((bytesOf e bank).resize e.unpackedSize.toNat).size < e.unpackedSize.toNat := by
      rw [Bytes.size_resize]
      omega
    rw [expanded, unpackInPlace]
    by_cases small : e.packedSize.toNat < trailerSize
    · rw [if_pos small]
      exact ⟨_, rfl⟩
    · rw [if_neg small, if_neg roomy, if_pos exceeds]
      exact ⟨_, rfl⟩
  obtain ⟨cause, failed⟩ := failed
  exact ⟨cause, (read_eq_unpack_iff known here whole differ).2 ⟨rfl, failed⟩⟩

end Known

end Store

/-- **Reading is total and classified.** It never changes the store or the files. A resource is
unknown just if its id is not below the length of the memory list; of a known one the bank is
missing just if it cannot be read; a bank that can be read is too short just if it ends before the
bytes of the resource do, of which there must be some; and if it does not, the bytes are the data if
both sizes are the same, and otherwise expansion in a buffer of the size of the data decides, which
always refuses bytes that are more than the data. Whatever is read is as long as the entry says. -/
theorem Library.read_classified (l : Library) (id : UInt16) :
    let outcome := l.store.read l.files id
    Ends (Library.read id) l
        (fun data l' => outcome = .ok data ∧ l'.store = l.store ∧ l'.files = l.files)
        (fun e l' => outcome = .error e ∧ l'.store = l.store ∧ l'.files = l.files) ∧
      (∀ i, outcome = .error (.unknownResource i) ↔ i = id ∧ l.store.list.size ≤ id.toNat) ∧
      ∀ e, l.store.list.get? id = some e →
        (∀ path cause, outcome = .error (.io path cause) ↔
          path = l.store.bankPath e ∧ l.store.bankOf l.files e = .error cause) ∧
        (∀ data, outcome = .ok data → data.size = e.unpackedSize.toNat) ∧
        ∀ bank, l.store.bankOf l.files e = .ok bank →
          (∀ i name, outcome = .error (.shortBank i name) ↔
            i = e.id ∧ name = e.bankFile ∧ Store.EndsEarly e bank) ∧
          (¬Store.EndsEarly e bank →
            (e.packedSize = e.unpackedSize → outcome = .ok (Store.bytesOf e bank)) ∧
            (e.packedSize ≠ e.unpackedSize →
              (∀ data, outcome = .ok data ↔ Store.expanded e bank = (data, .ok ())) ∧
                ∀ i cause, outcome = .error (.unpack i cause) ↔
                  i = id ∧ (Store.expanded e bank).2 = .error cause) ∧
            (e.unpackedSize < e.packedSize → ∃ cause, outcome = .error (.unpack id cause))) := by
  intro outcome
  refine ⟨read_ends id l, fun i => Store.read_eq_unknown_iff, fun e known => ?_⟩
  refine ⟨fun path cause => Store.read_eq_io_iff known, fun data => Store.size_of_read known,
    fun bank here => ⟨fun i name => Store.read_eq_short_iff known here, fun whole => ?_⟩⟩
  refine ⟨fun same => ?_, fun differ => ?_, Store.read_of_longer known here whole⟩
  · have stored : Store.expand id e (Store.bytesOf e bank) = .ok (Store.bytesOf e bank) :=
      Store.expand_of_same same _
    rw [← stored]
    exact Store.read_of_whole known here whole
  · constructor
    · exact fun data => Store.read_eq_ok_iff known here whole differ
    · exact fun i cause => Store.read_eq_unpack_iff known here whole differ

/-- A game with one packed resource. -/
theorem Library.read_classified_packed :
    let block : Bytes := #[128, 3, 135, 192, 2, 2, 192, 32, 0, 88, 4, 24, 130, 89, 67, 248, 0, 0, 0,
      38]
    let e : MemoryEntry := ⟨0, .ofByte 0, .ofByte 0, 0, 1, 0, 20, 38⟩
    let files : FileTree := ⟨[(["game"], .directory), (["BANK01", "game"], .file block)]⟩
    let l := Library.ofStore (.ofList "game" ⟨#[e]⟩) files
    l.store.list.get? 0 = some e ∧ l.store.bankOf l.files e = .ok block ∧
      ¬Store.EndsEarly e block ∧ e.packedSize ≠ e.unpackedSize ∧
      l.store.read l.files 0 = .ok (Store.expanded e block).1 := by
  intro block e files l
  have known : l.store.list.get? 0 = some e := rfl
  have here : l.store.bankOf l.files e = .ok block := by decide +kernel
  have whole : ¬Store.EndsEarly e block := by
    rintro ⟨-, early⟩
    revert early
    decide
  have differ : e.packedSize ≠ e.unpackedSize := by decide
  have ok : (Store.expanded e block).2 = .ok () := by decide +kernel
  obtain ⟨-, -, classified⟩ := Library.read_classified l 0
  obtain ⟨-, -, given⟩ := classified e known
  obtain ⟨expanded, -⟩ := ((given block here).2 whole).2.1 differ
  exact ⟨known, here, whole, differ, (expanded _).2 (Prod.snd_eq_iff.1 ok)⟩

end Cinematic
