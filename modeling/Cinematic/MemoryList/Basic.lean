import Cinematic.Bytes
import Cinematic.Resource
import Cinematic.Text.Pad

/-!
# The memory list

The memory list says for every resource where it is and how large. On disk it is a table of
records of twenty bytes each, in the order of the resources' ids, **closed by a record whose
kind byte is `0xff`**; whatever follows that record is ignored. A table that ends without it is
truncated, and a table with more than 65536 resources has ids that do not exist.

| bytes | content |
|---|---|
| 0 | load state |
| 1 | kind |
| 6 | rank |
| 7 | bank |
| 8–11 | offset in the bank |
| 14–15 | packed size |
| 18–19 | unpacked size |

The bytes in between are not used; they are written as zero.
-/

namespace Cinematic

/-- One resource of the memory list. -/
structure MemoryEntry where
  /-- Its place in the list, by which bytecode loads it. -/
  id : UInt16
  /-- The load state on disk. -/
  state : Resource.State
  /-- What it holds. -/
  kind : Resource.Kind
  /-- A priority that nothing here depends on. -/
  rank : UInt8
  /-- The number of the bank file that holds it. -/
  bank : UInt8
  /-- Where it begins in the bank. -/
  bankOffset : UInt32
  /-- How many bytes it takes in the bank. -/
  packedSize : UInt16
  /-- How many bytes its data are. -/
  unpackedSize : UInt16
deriving Repr, DecidableEq

namespace MemoryEntry

/-- The length of a record. -/
def recordSize : Nat := 20

/-- Whether the bank holds the resource packed; if not, its data stand there as they are. -/
def isPacked (e : MemoryEntry) : Bool := e.packedSize ≠ e.unpackedSize

/-- The file of a bank. -/
def bankName (bank : UInt8) : String := "BANK" ++ Text.hexUpper 2 bank.toNat

/-- The file that holds the resource. -/
def bankFile (e : MemoryEntry) : String := bankName e.bank

/-- The file that the resource's data are dumped to. -/
def dumpName (e : MemoryEntry) : String :=
  Text.hex 2 e.id.toNat ++ "_" ++ e.kind.name ++ ".data"

/-- The resource described by the record that begins at a position. -/
def decode (id : UInt16) (b : Bytes) (pos : Nat) : MemoryEntry where
  id := id
  state := .ofByte (b.byteAt pos)
  kind := .ofByte (b.byteAt (pos + 1))
  rank := b.byteAt (pos + 6)
  bank := b.byteAt (pos + 7)
  bankOffset := (b.wordAt (pos + 8) 4).toUInt32
  packedSize := (b.wordAt (pos + 14) 2).toUInt16
  unpackedSize := (b.wordAt (pos + 18) 2).toUInt16

/-- The record of a resource. -/
def encode (e : MemoryEntry) : List UInt8 :=
  [e.state.toByte, e.kind.toByte, 0, 0, 0, 0, e.rank, e.bank]
    ++ Bytes.bigEndian 4 e.bankOffset.toNat ++ [0, 0] ++ Bytes.bigEndian 2 e.packedSize.toNat
    ++ [0, 0] ++ Bytes.bigEndian 2 e.unpackedSize.toNat

@[simp] theorem length_encode (e : MemoryEntry) : e.encode.length = recordSize := by
  simp [encode, recordSize]

end MemoryEntry

/-- The resources of a game, in the order of their ids. -/
structure MemoryList where
  /-- The resources. -/
  entries : Array MemoryEntry
deriving Repr, DecidableEq

namespace MemoryList

/-- Why a table is no memory list. -/
inductive ParseError where
  /-- The table ends after so many resources without its closing record. -/
  | truncated (entries : Nat)
  /-- There are more resources than ids. -/
  | tooManyEntries
deriving Repr, DecidableEq

/-- The wording of a refused table. -/
def ParseError.message : ParseError → String
  | truncated entries => "memory list truncated after " ++ toString entries ++ " entries"
  | tooManyEntries => "memory list has more than 65536 entries"

/-- How many ids there are. -/
def maxEntries : Nat := 65536

/-- Reads the records that follow those read so far. -/
def parseOn (b : Bytes) (read : Array MemoryEntry) : Except ParseError (Array MemoryEntry) :=
  let pos := read.size * MemoryEntry.recordSize
  if _complete : pos + MemoryEntry.recordSize ≤ b.size then
    if b.byteAt (pos + 1) = Resource.Kind.endMark then .ok read
    else if maxEntries ≤ read.size then .error .tooManyEntries
    else parseOn b (read.push (.decode read.size.toUInt16 b pos))
  else .error (.truncated read.size)
termination_by b.size - read.size * MemoryEntry.recordSize
decreasing_by
  have fits : read.size * MemoryEntry.recordSize + MemoryEntry.recordSize ≤ b.size := _complete
  simp only [MemoryEntry.recordSize, Array.size_push] at fits ⊢
  omega

/-- **The memory list that a table describes.** -/
def parse (b : Bytes) : Except ParseError MemoryList := (parseOn b #[]).map MemoryList.mk

/-- The record that closes a table. -/
def endRecord : List UInt8 :=
  [0, Resource.Kind.endMark] ++ List.replicate (MemoryEntry.recordSize - 2) 0

/-- **The table that describes a memory list.** -/
def toBytes (l : MemoryList) : Bytes :=
  (l.entries.toList.flatMap MemoryEntry.encode ++ endRecord).toArray

/-- How many resources there are. -/
def size (l : MemoryList) : Nat := l.entries.size

/-- The resource with an id. -/
def get? (l : MemoryList) (id : UInt16) : Option MemoryEntry := l.entries[id.toNat]?

/-- Whether there is no resource. -/
def isEmpty (l : MemoryList) : Bool := l.entries.isEmpty

end MemoryList

end Cinematic
