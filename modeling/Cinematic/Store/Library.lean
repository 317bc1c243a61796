import Cinematic.Log.Entry
import Cinematic.Store.Basic

/-!
# Loading resources

Loading touches three things: the store, the files it reads and dumps to, and the log. Together
they are a **library**, and loading is a computation on it that keeps what it has done also when
it fails.

A resource is loaded once: while its data are in memory, asking for it again reads no file. The
data are in memory only when everything has succeeded, the dump included. **Loading a part
forgets everything else first**, so that what is in memory afterwards depends on the part alone;
when one of the part's resources fails, those before it stay loaded, and the current part remains
what it was.

Bytecode loads resources and asks for parts by one instruction. An id below the length of the
memory list is a resource; any other is that of a part, which is only noted
(`Cinematic.Library.request`), since a part must not be switched in the middle of a pass.
-/

namespace Cinematic

/-- A store with its files and its log. -/
structure Library where
  /-- The store. -/
  store : Store
  /-- The files. -/
  files : FileTree
  /-- What went into the log. -/
  log : Array Log.Entry

/-- A computation on a library. -/
abbrev Loading := EStateM StoreError Library

/-- The resources of a part. -/
structure LoadedPart where
  /-- The part. -/
  part : Part
  /-- Its palettes. -/
  palettes : Bytes
  /-- Its bytecode segment. -/
  bytecode : Bytes
  /-- The polygons of its scenes. -/
  cinematic : Bytes
  /-- The polygons of its characters, if it has any. -/
  characters : Option Bytes
deriving Repr, DecidableEq

namespace Library

/-- A library with nothing in the log. -/
def ofStore (store : Store) (files : FileTree) : Library := ⟨store, files, #[]⟩

/-- **Opens the store of a directory.** -/
def openDirectory (files : FileTree) (dir : String) : Except StoreError Library :=
  let path := FileTree.join dir memoryListFile
  match files.read path with
  | .error cause => .error (.io path cause)
  | .ok bytes =>
    match MemoryList.parse bytes with
    | .error cause => .error (.memoryList cause)
    | .ok list =>
      .ok ⟨.ofList dir list, files, #[Log.memoryListLoaded list.size dir]⟩

/-- Puts an entry into the log. -/
def note (e : Log.Entry) : Loading Unit :=
  modify fun l => { l with log := l.log.push e }

/-- Changes the store. -/
def update (f : Store → Store) : Loading Unit :=
  modify fun l => { l with store := f l.store }

/-- The result of a question that may have no answer. -/
def answer {α : Type} (result : Except StoreError α) : Loading α :=
  match result with
  | .ok a => pure a
  | .error e => throw e

/-- The entry of a resource. -/
def entry (id : UInt16) : Loading MemoryEntry := do
  answer ((← get).store.entry id)

/-- The data of a resource, read from its bank whether or not they are in memory. -/
def read (id : UInt16) : Loading Bytes := do
  let l ← get
  let data ← answer (l.store.read l.files id)
  let e ← entry id
  if e.isPacked then note (Log.blockUnpacked e.unpackedSize.toNat)
  pure data

/-- Writes a file. -/
def write (path : String) (content : Bytes) : Loading Unit := do
  match (← get).files.write path content with
  | .ok files => modify fun l => { l with files := files }
  | .error cause => throw (.io path cause)

/-- Dumps the data of a resource if resources are dumped. -/
def dump (e : MemoryEntry) (data : Bytes) : Loading Unit := do
  match (← get).store.dumpDir with
  | some dir => write (FileTree.join dir e.dumpName) data
  | none => pure ()

/-- Loads a resource that is not in memory. -/
def loadFresh (id : UInt16) : Loading Bytes := do
  let e ← entry id
  note (Log.loadingResource id e.kind e.bank)
  let data ← read id
  dump e data
  update (·.hold id data)
  pure data

/-- **Loads a resource** unless it is in memory already. -/
def load (id : UInt16) : Loading Bytes := do
  match (← get).store.data? id with
  | some data => pure data
  | none => loadFresh id

/-- Forgets every loaded resource. -/
def clear : Loading Unit := update Store.clear

/-- Loads the resources of a part, after everything else has been forgotten. -/
def loadResources (part : Part) : Loading LoadedPart := do
  clear
  let palettes ← load part.palettes.toUInt16
  let bytecode ← load part.bytecode.toUInt16
  let cinematic ← load part.cinematic.toUInt16
  let characters ← if part.characters = 0 then pure none
    else some <$> load part.characters.toUInt16
  pure ⟨part, palettes, bytecode, cinematic, characters⟩

/-- **Loads a part** and makes it the current one. -/
def loadPart (id : UInt16) : Loading LoadedPart := do
  match Part.ofId? id with
  | none => throw (.unknownPart id)
  | some part =>
    note (Log.loadingPart part)
    let loaded ← loadResources part
    update fun s => { s with currentPart := some id, requestedPart := none }
    pure loaded

/-- **What the instruction that loads a resource means**: a resource is loaded, a part is only noted. -/
def request (id : UInt16) : Loading Unit := do
  if (← get).store.list.size ≤ id.toNat then
    match Part.ofId? id with
    | none => throw (.unknownPart id)
    | some _ =>
      note (Log.partRequestedOfStore id)
      update fun s => { s with requestedPart := some id }
  else
    let _ ← load id

/-- The part that bytecode has asked for since the last time, if there is one. -/
def takeRequest : Loading (Option UInt16) := do
  let requested := (← get).store.requestedPart
  update fun s => { s with requestedPart := none }
  pure requested

/-- **Dumps every resource that is loaded from now on** to a directory, which is made, and lists the
memory list there. -/
def dumpTo (dir : String) : Loading Unit := do
  let (files, outcome) := (← get).files.createDirectory dir
  modify fun l => { l with files := files }
  match outcome with
  | .error cause => throw (.io dir cause)
  | .ok () =>
    let listing := (← get).store.list.listing
    write (FileTree.join dir dumpListingFile) listing.toUTF8.data
    update fun s => { s with dumpDir := some dir }

end Library

end Cinematic
