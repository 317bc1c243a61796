import Cinematic.FileTree.Basic
import Cinematic.MemoryList.Totals
import Cinematic.Packing.Unpack
import Cinematic.Part

/-!
# The store of resources

A game is a directory with a memory list and the banks that it refers to. The **store** is the
memory list with two tables beside it: how far each resource has been brought into memory, and the
data of those that are there. Bytecode is told the former, the engine works with the latter, so both
are written together, when a resource is put into memory and when everything is forgotten. The load
states on disk are only listed, never believed.

A resource is read by taking its packed bytes from its bank and, if the list says that they are
fewer or more than the data, expanding them in place. Reading does not change the store.
-/

namespace Cinematic

/-- The file with the memory list. -/
def memoryListFile : String := "MEMLIST.BIN"

/-- The file that the memory list is listed in when resources are dumped. -/
def dumpListingFile : String := "memlist.txt"

/-- Why a store cannot do something. -/
inductive StoreError where
  /-- A file cannot be read or written. -/
  | io (path : String) (cause : OsError)
  /-- The memory list is none. -/
  | memoryList (cause : MemoryList.ParseError)
  /-- There is no resource with the id. -/
  | unknownResource (id : UInt16)
  /-- A bank ends before a resource does. -/
  | shortBank (id : UInt16) (bank : String)
  /-- A resource cannot be expanded. -/
  | unpack (id : UInt16) (cause : Packing.UnpackError)
  /-- There is no part with the id. -/
  | unknownPart (id : UInt16)
deriving Repr, DecidableEq

/-- The wording of an error. -/
def StoreError.message : StoreError → String
  | io path cause => path ++ ": " ++ cause.message
  | memoryList cause => "invalid memory list: " ++ cause.message
  | unknownResource id => "unknown resource " ++ Text.hexMarked 2 id.toNat
  | shortBank id bank =>
    bank ++ " ends before the end of resource " ++ Text.hexMarked 2 id.toNat
  | unpack id cause =>
    "cannot unpack resource " ++ Text.hexMarked 2 id.toNat ++ ": " ++ cause.message
  | unknownPart id => "unknown game part " ++ Text.hexMarked 4 id.toNat

/-- **The resources of a game, and what is in memory of them.** -/
structure Store where
  /-- The directory with the banks. -/
  dir : String
  /-- The directory that loaded resources are dumped to, if they are. -/
  dumpDir : Option String
  /-- The memory list. -/
  list : MemoryList
  /-- How far each resource has been brought into memory, in the order of the memory list. -/
  states : Array Resource.State
  /-- The data of each resource, if they are in memory, in the same order. -/
  data : Array (Option Bytes)
  /-- The part whose resources were loaded last. -/
  currentPart : Option UInt16
  /-- The part that bytecode has asked for and not got yet. -/
  requestedPart : Option UInt16

namespace Store

/-- A store with nothing in memory. -/
def ofList (dir : String) (list : MemoryList) : Store :=
  ⟨dir, none, list, Array.replicate list.size .notNeeded, Array.replicate list.size none, none, none⟩

/-- The entry of a resource. -/
def entry (s : Store) (id : UInt16) : Except StoreError MemoryEntry :=
  match s.list.get? id with
  | some e => .ok e
  | none => .error (.unknownResource id)

/-- The data of a resource, if they are in memory. -/
def data? (s : Store) (id : UInt16) : Option Bytes := s.data.getD id.toNat none

/-- How far a resource has been brought into memory, if there is one with the id. -/
def state? (s : Store) (id : UInt16) : Option Resource.State := s.states[id.toNat]?

/-- What bytecode can learn about a resource, if there is one with the id. -/
def resource? (s : Store) (id : UInt16) : Option Resource.Descriptor :=
  match s.list.get? id, s.state? id with
  | some e, some state => some ⟨e.kind, state, e.unpackedSize⟩
  | _, _ => none

/-- The store with the data of a resource in memory. -/
def hold (s : Store) (id : UInt16) (data : Bytes) : Store :=
  { s with
    states := s.states.setIfInBounds id.toNat .loaded
    data := s.data.setIfInBounds id.toNat (some data) }

/-- The store with nothing in memory. -/
def clear (s : Store) : Store :=
  { s with
    states := Array.replicate s.list.size .notNeeded
    data := Array.replicate s.list.size none }

@[simp] theorem data?_ofList (dir : String) (list : MemoryList) (id : UInt16) :
    (ofList dir list).data? id = none := by
  simp [ofList, data?, Array.getD_eq_getD_getElem?, Array.getElem?_replicate]
  split <;> rfl

@[simp] theorem data?_clear (s : Store) (id : UInt16) : s.clear.data? id = none := by
  simp [clear, data?, Array.getD_eq_getD_getElem?, Array.getElem?_replicate]
  split <;> rfl

theorem data?_hold_self {s : Store} {id : UInt16} (h : id.toNat < s.data.size) (data : Bytes) :
    (s.hold id data).data? id = some data := by
  simp [hold, data?, Array.getD_eq_getD_getElem?, h]

theorem data?_hold_of_ne {s : Store} {id other : UInt16} (h : other ≠ id) (data : Bytes) :
    (s.hold id data).data? other = s.data? other := by
  have apart : id.toNat ≠ other.toNat := fun e => h (UInt16.toNat_inj.1 e).symm
  simp [hold, data?, Array.getD_eq_getD_getElem?, Array.getElem?_setIfInBounds_ne apart]

theorem state?_ofList (dir : String) (list : MemoryList) (id : UInt16) :
    (ofList dir list).state? id = if id.toNat < list.size then some .notNeeded else none :=
  Array.getElem?_replicate

theorem state?_clear (s : Store) (id : UInt16) :
    s.clear.state? id = if id.toNat < s.list.size then some .notNeeded else none :=
  Array.getElem?_replicate

theorem state?_hold_self {s : Store} {id : UInt16} (h : id.toNat < s.states.size) (data : Bytes) :
    (s.hold id data).state? id = some .loaded :=
  Array.getElem?_setIfInBounds_self_of_lt h

theorem state?_hold_of_ne {s : Store} {id other : UInt16} (h : other ≠ id) (data : Bytes) :
    (s.hold id data).state? other = s.state? other := by
  have apart : id.toNat ≠ other.toNat := fun e => h (UInt16.toNat_inj.1 e).symm
  exact Array.getElem?_setIfInBounds_ne apart

/-! ### Reading -/

/-- The path of the bank that holds a resource. -/
def bankPath (s : Store) (e : MemoryEntry) : String := FileTree.join s.dir e.bankFile

/-- The bytes of a resource as its bank holds them. -/
def readPacked (s : Store) (files : FileTree) (e : MemoryEntry) : Except StoreError Bytes :=
  match files.readRange (s.bankPath e) e.bankOffset.toNat e.packedSize.toNat with
  | .ok bytes => .ok bytes
  | .error .short => .error (.shortBank e.id e.bankFile)
  | .error (.os cause) => .error (.io (s.bankPath e) cause)

/-- The data that the bytes of a bank stand for. -/
def expand (id : UInt16) (e : MemoryEntry) (bytes : Bytes) : Except StoreError Bytes :=
  if e.isPacked then
    let unpacked := e.unpackedSize.toNat
    match Packing.unpackInPlace (bytes.resize unpacked) e.packedSize.toNat unpacked with
    | (data, .ok ()) => .ok data
    | (_, .error cause) => .error (.unpack id cause)
  else .ok bytes

/-- **The data of a resource**, read from its bank. -/
def read (s : Store) (files : FileTree) (id : UInt16) : Except StoreError Bytes := do
  let e ← s.entry id
  let bytes ← s.readPacked files e
  expand id e bytes

end Store

end Cinematic
