import Cinematic.Proofs.FileTree.Keeping
import Cinematic.Proofs.Store.Loading

/-!
# The store is true to its banks

What a store has in memory is **what its banks would give now**, whatever has been done with it and
whatever of this has failed (`Cinematic.Library.foldl_obey_invariant`). A resource is put into
memory after it has been read and dumped, and nothing is put there in any other way; what has to be
shown is that nothing that a store writes can spoil a bank. Dumps have names of their own
(`Cinematic.not_isBank_dumpName`), so banks are kept by whatever is dumped, even if it is dumped
beside them.

Loading and dumping are told apart here from what a client does with them: a client gives commands
(`Cinematic.Library.Command`), one after the other, and goes on after one that has failed.
-/

namespace Cinematic

open FileTree (Nameable nameable_of_length)

/-! ### Names of files -/

/-- The names of banks. -/
def IsBank (name : String) : Prop := ∃ bank, name = MemoryEntry.bankName bank

theorem nameable_bankName (bank : UInt8) : Nameable (MemoryEntry.bankName bank) := by
  have capital : ∀ d < 16, '/' ≠ (Nat.digitChar d).toUpper := by decide
  refine nameable_of_length ?_ ?_
  · rw [MemoryEntry.bankName, Text.hexUpper, String.toList_append, String.toList_map]
    intro among
    rcases List.mem_append.1 among with front | digits
    · revert front
      decide
    · obtain ⟨c, shown, same⟩ := List.mem_map.1 digits
      obtain ⟨d, below, rfl⟩ := Text.mem_hex shown
      exact capital d below same.symm
  · rw [MemoryEntry.bankName, String.length_append]
    exact Nat.lt_of_lt_of_le (by decide : 2 < "BANK".length) (Nat.le_add_right _ _)

theorem capital_mem_of_isBank {name : String} (bank : IsBank name) : 'B' ∈ name.toList := by
  obtain ⟨b, rfl⟩ := bank
  rw [MemoryEntry.bankName, String.toList_append]
  exact List.mem_append_left _ (by decide)

/-- A dump's name has neither slashes nor capitals. -/
theorem not_mem_dumpName (e : MemoryEntry) {c : Char} (odd : c = '/' ∨ c = 'B') :
    c ∉ e.dumpName.toList := by
  have digits : ∀ d < 16, c ≠ Nat.digitChar d := by
    rcases odd with rfl | rfl <;> decide
  have words : c ∉ "_".toList ∧ c ∉ ".data".toList := by
    rcases odd with rfl | rfl <;> decide
  have kinds (kind : Resource.Kind) : c ∉ kind.name.toList := by
    cases kind with
    | unknown code =>
      change c ∉ "unknown".toList
      rcases odd with rfl | rfl <;> decide
    | _ => rcases odd with rfl | rfl <;> decide
  simp only [MemoryEntry.dumpName, String.toList_append, List.mem_append, not_or]
  refine ⟨⟨⟨fun shown => ?_, words.1⟩, kinds e.kind⟩, words.2⟩
  obtain ⟨d, below, same⟩ := Text.mem_hex shown
  exact digits d below same

theorem nameable_dumpName (e : MemoryEntry) : Nameable e.dumpName := by
  refine nameable_of_length (not_mem_dumpName e (.inl rfl)) ?_
  rw [MemoryEntry.dumpName, String.length_append]
  exact Nat.lt_of_lt_of_le (by decide : 2 < ".data".length) (Nat.le_add_left _ _)

/-- **No dump has the name of a bank.** -/
theorem not_isBank_dumpName (e : MemoryEntry) : ¬ IsBank e.dumpName :=
  fun bank => not_mem_dumpName e (.inr rfl) (capital_mem_of_isBank bank)

theorem nameable_dumpListingFile : Nameable dumpListingFile :=
  nameable_of_length (by decide) (by decide)

theorem not_isBank_dumpListingFile : ¬ IsBank dumpListingFile := fun bank =>
  (by decide : 'B' ∉ dumpListingFile.toList) (capital_mem_of_isBank bank)

/-! ### Reading again -/

section Keeping

variable {files files' : FileTree} (keeps : FileTree.Keeps IsBank files files') {s : Store}
include keeps

/-- **What could be read from a bank still can.** -/
theorem Store.readPacked_of_keeps {e : MemoryEntry} {bytes : Bytes}
    (read : s.readPacked files e = .ok bytes) : s.readPacked files' e = .ok bytes := by
  unfold Store.readPacked FileTree.readRange at read ⊢
  rcases found : files.find (s.bankPath e) with cause | node
  · rw [found] at read
    cases read
  · have found' : files'.find (s.bankPath e) = .ok node :=
      keeps.find (nameable_bankName e.bank) ⟨_, rfl⟩ found
    rw [found] at read
    rw [found']
    exact read

/-- **A resource that could be read still can.** -/
theorem Store.read_of_keeps {id : UInt16} {data : Bytes} (read : s.read files id = .ok data) :
    s.read files' id = .ok data := by
  obtain ⟨e, known, read⟩ := bind_eq_ok_iff.1 read
  obtain ⟨bytes, packed, expanded⟩ := bind_eq_ok_iff.1 read
  exact bind_eq_ok_iff.2
    ⟨e, known, bind_eq_ok_iff.2 ⟨bytes, readPacked_of_keeps keeps packed, expanded⟩⟩

end Keeping

namespace Library

open FileTree (Keeps)

variable {α β : Type} {dir : String} {list : MemoryList} {l l' : Library} {id : UInt16}
  {data : Bytes}

/-- **The library is true to the banks of a directory**: its store is in order, and what is in memory
is what would be read. -/
structure Sound (dir : String) (list : MemoryList) (l : Library) : Prop where
  dir : l.store.dir = dir
  list : l.store.list = list
  inOrder : l.store.InOrder
  read (id : UInt16) (data : Bytes) : l.store.data? id = some data →
    l.store.read l.files id = .ok data

/-- Whatever is done beside the store, as long as the banks are kept. -/
theorem Sound.beside (sound : Sound dir list l) (store : l'.store = l.store)
    (files : Keeps IsBank l.files l'.files) : Sound dir list l' where
  dir := by rw [store, sound.dir]
  list := by rw [store, sound.list]
  inOrder := by rw [store]; exact sound.inOrder
  read id data here := by
    rw [store] at here ⊢
    exact Store.read_of_keeps files (sound.read id data here)

/-- The store with nothing in memory. -/
theorem sound_of_empty (inOrder : l.store.InOrder) (empty : ∀ id, l.store.data? id = none) :
    Sound l.store.dir l.store.list l :=
  ⟨rfl, rfl, inOrder, fun id data here => by cases (empty id).symm.trans here⟩

/-- Data that have been read are put into memory. -/
theorem Sound.hold (sound : Sound dir list l) (read : l.store.read l.files id = .ok data) :
    Sound dir list { l with store := l.store.hold id data } where
  dir := sound.dir
  list := sound.list
  inOrder := sound.inOrder.hold id data
  read other known here := by
    rcases eq_or_ne other id with rfl | apart
    · obtain ⟨e, entry, -⟩ := bind_eq_ok_iff.1 read
      have inside : other.toNat < l.store.data.size := by
        rw [sound.inOrder.data]
        exact Store.lt_size_of_entry entry
      rw [Store.data?_hold_self inside] at here
      cases here
      exact read
    · rw [Store.data?_hold_of_ne apart] at here
      exact sound.read other known here

/-! ### Computations -/

/-- **The computation keeps the library true to its banks**, however it ends. -/
def Steady (x : Loading α) : Prop := ∀ ⦃dir list l⦄, Sound dir list l →
  Ends x l (fun _ l' => Sound dir list l') fun _ l' => Sound dir list l'

theorem Steady.pure (a : α) : Steady (Pure.pure a : Loading α) := fun _ _ _ sound => sound

theorem Steady.throw (e : StoreError) : Steady (throw e : Loading α) := fun _ _ _ sound => sound

theorem Steady.get : Steady (get : Loading Library) := fun _ _ _ sound => sound

theorem Steady.bind {x : Loading α} {f : α → Loading β} (first : Steady x)
    (second : ∀ a, Steady (f a)) : Steady (x >>= f) :=
  fun _ _ _ sound => (first sound).bind fun a _ sound' => second a sound'

theorem Steady.map {x : Loading α} (f : α → β) (steady : Steady x) : Steady (f <$> x) :=
  fun _ _ _ sound => Ends.map (steady sound)

theorem steady_note (e : Log.Entry) : Steady (note e) :=
  fun _ _ l sound => sound.beside rfl (.refl _ l.files)

theorem steady_answer (result : Except StoreError α) : Steady (answer result) := by
  cases result with
  | ok a => exact .pure a
  | error e => exact .throw e

theorem steady_entry (id : UInt16) : Steady (entry id) := .bind .get fun _ => steady_answer _

/-- A computation that begins with a look at the library. -/
theorem ends_get {f : Library → Loading α} {P : α → Library → Prop}
    {Q : StoreError → Library → Prop} (ends : Ends (f l) l P Q) : Ends (get >>= f) l P Q := ends

/-- **Reading gives what is in the bank**, and touches nothing but the log. -/
theorem read_ends (id : UInt16) (l : Library) :
    Ends (read id) l
      (fun data l' => l.store.read l.files id = .ok data ∧ l'.store = l.store ∧ l'.files = l.files)
      fun e l' => l.store.read l.files id = .error e ∧ l'.store = l.store ∧ l'.files = l.files := by
  refine ends_get ?_
  rcases given : l.store.read l.files id with e | data
  · exact ⟨rfl, rfl, rfl⟩
  · obtain ⟨e, known, -⟩ := bind_eq_ok_iff.1 given
    change Ends (answer (l.store.entry id) >>= _) l _ _
    rw [known]
    change Ends (if e.isPacked then _ else _) l _ _
    split
    · exact ⟨rfl, rfl, rfl⟩
    · exact ⟨rfl, rfl, rfl⟩

theorem steady_read (id : UInt16) : Steady (read id) := by
  intro dir list l sound
  refine (read_ends id l).mono ?_ ?_
  · rintro data l' ⟨-, store, files⟩
    exact sound.beside store (files ▸ .refl _ _)
  · rintro e l' ⟨-, store, files⟩
    exact sound.beside store (files ▸ .refl _ _)

/-- **Writing under a name that no bank has** leaves the store and the banks alone. -/
theorem write_ends (dir : String) {name : String} (nameable : Nameable name) (other : ¬ IsBank name)
    (content : Bytes) (l : Library) :
    let same (l' : Library) := l'.store = l.store ∧ Keeps IsBank l.files l'.files
    Ends (write (FileTree.join dir name) content) l (fun _ => same) fun _ => same := by
  intro same
  refine ends_get ?_
  split
  · next written => exact ⟨rfl, FileTree.keeps_write nameable other written⟩
  · exact ⟨rfl, .refl _ _⟩

/-- **Dumping leaves the store and the banks alone.** -/
theorem dump_ends (e : MemoryEntry) (data : Bytes) (l : Library) :
    let same (l' : Library) := l'.store = l.store ∧ Keeps IsBank l.files l'.files
    Ends (dump e data) l (fun _ => same) fun _ => same := by
  intro same
  refine ends_get ?_
  split
  · exact write_ends _ (nameable_dumpName e) (not_isBank_dumpName e) data l
  · exact ⟨rfl, .refl _ _⟩

/-- **Loading keeps the library true to its banks**: nothing is put into memory that was not read,
and the dump between reading and putting spoils nothing. -/
theorem steady_loadFresh (id : UInt16) : Steady (loadFresh id) := by
  refine .bind (steady_entry id) fun e => .bind (steady_note _) fun _ => ?_
  intro dir list l sound
  have reads : Ends (read id) l
      (fun data l' => Sound dir list l' ∧ l'.store.read l'.files id = .ok data)
      fun _ l' => Sound dir list l' := by
    refine (read_ends id l).mono ?_ ?_
    · rintro data l' ⟨given, store, files⟩
      refine ⟨sound.beside store (files ▸ .refl _ _), ?_⟩
      rw [store, files]
      exact given
    · rintro _ l' ⟨-, store, files⟩
      exact sound.beside store (files ▸ .refl _ _)
  refine reads.bind ?_
  rintro data l₁ ⟨sound₁, given₁⟩
  have dumps : Ends (dump e data) l₁
      (fun _ l' => Sound dir list l' ∧ l'.store.read l'.files id = .ok data)
      fun _ l' => Sound dir list l' := by
    refine (dump_ends e data l₁).mono ?_ ?_
    · rintro _ l' ⟨store, files⟩
      refine ⟨sound₁.beside store files, ?_⟩
      rw [store]
      exact Store.read_of_keeps files given₁
    · rintro _ l' ⟨store, files⟩
      exact sound₁.beside store files
  refine dumps.bind ?_
  rintro _ l₂ ⟨sound₂, given₂⟩
  exact sound₂.hold given₂

theorem steady_load (id : UInt16) : Steady (load id) := by
  refine .bind .get fun l => ?_
  split
  · exact .pure _
  · exact steady_loadFresh id

theorem sound_clear (l : Library) :
    Sound l.store.dir l.store.list { l with store := l.store.clear } :=
  sound_of_empty (l := { l with store := l.store.clear }) (Store.inOrder_clear _)
    (Store.data?_clear _)

theorem steady_clear : Steady clear := by
  intro dir list l sound
  have cleared := sound_clear l
  rw [sound.dir, sound.list] at cleared
  exact cleared

theorem steady_loadResources (part : Part) : Steady (loadResources part) := by
  refine .bind steady_clear fun _ => .bind (steady_load _) fun _ => .bind (steady_load _) fun _ =>
    .bind (steady_load _) fun _ => ?_
  dsimp only
  split
  · exact .pure _
  · exact .bind (.map _ (steady_load _)) fun _ => .pure _

theorem steady_loadPart (id : UInt16) : Steady (loadPart id) := by
  unfold loadPart
  split
  · exact .throw _
  · refine .bind (steady_note _) fun _ => .bind (steady_loadResources _) fun _ =>
      .bind (fun _ _ _ sound => ?_) fun _ => .pure _
    exact ⟨sound.dir, sound.list, sound.inOrder.of_same_tables rfl rfl rfl, sound.read⟩

/-- Loading a part forgets everything first, so it makes no difference what was in memory. -/
theorem loadPart_of_clear {part : Part} (found : Part.ofId? id = some part) (l : Library) :
    loadPart id l = loadPart id { l with store := l.store.clear } := by
  unfold loadPart
  rw [found]
  rfl

/-- **A part that has been loaded leaves a library that is true to its banks**, whatever it was
before. -/
theorem loadPart_sound (id : UInt16) (l : Library) :
    Ends (loadPart id) l (fun _ l' => Sound l.store.dir l.store.list l') fun _ _ => True := by
  cases found : Part.ofId? id with
  | none =>
    unfold loadPart
    rw [found]
    trivial
  | some part =>
    rw [Ends, loadPart_of_clear found]
    exact (steady_loadPart id (sound_clear l)).mono (fun _ _ sound => sound) fun _ _ _ => trivial

theorem steady_request (id : UInt16) : Steady (request id) := by
  refine .bind .get fun l => ?_
  split
  · split
    · exact .throw _
    · refine .bind (steady_note _) fun _ _ _ _ sound => ?_
      exact ⟨sound.dir, sound.list, sound.inOrder.of_same_tables rfl rfl rfl, sound.read⟩
  · exact .bind (steady_load id) fun _ => .pure _

theorem steady_takeRequest : Steady takeRequest :=
  fun _ _ _ sound => ⟨sound.dir, sound.list, sound.inOrder.of_same_tables rfl rfl rfl, sound.read⟩

theorem steady_dumpTo (path : String) : Steady (dumpTo path) := by
  intro dir list l sound
  have keeps : Keeps IsBank l.files (l.files.createDirectory path).1 :=
    FileTree.keeps_createDirectory l.files path
  have made : Sound dir list { l with files := (l.files.createDirectory path).1 } :=
    sound.beside rfl keeps
  refine ends_get ?_
  generalize l.files.createDirectory path = result at made ⊢
  obtain ⟨files, outcome⟩ := result
  have sets : Ends (modify fun l => { l with files := files } : Loading Unit) l
      (fun _ l' => Sound dir list l') fun _ l' => Sound dir list l' := made
  refine sets.bind fun _ l₁ sound₁ => ?_
  cases outcome with
  | error cause => exact sound₁
  | ok done =>
    refine ends_get ?_
    have lists := (write_ends path nameable_dumpListingFile not_isBank_dumpListingFile
      l₁.store.list.listing.toUTF8.data l₁).mono
        (fun _ l' same => sound₁.beside same.1 same.2) fun _ l' same => sound₁.beside same.1 same.2
    refine lists.bind fun _ l' sound' => ?_
    exact ⟨sound'.dir, sound'.list, sound'.inOrder.of_same_tables rfl rfl rfl, sound'.read⟩

/-! ### Commands -/

/-- **What a client can ask of a library.** -/
inductive Command where
  /-- To load a resource. -/
  | load (id : UInt16)
  /-- To load a part. -/
  | loadPart (id : UInt16)
  /-- To do what the instruction that loads a resource means. -/
  | request (id : UInt16)
  /-- To read a resource. -/
  | read (id : UInt16)
  /-- To forget every loaded resource. -/
  | clear
  /-- To dump what is loaded from now on. -/
  | dumpTo (dir : String)
  /-- To say which part is waited for, and to wait no longer. -/
  | takeRequest
deriving Repr, DecidableEq

/-- How a command is carried out. -/
def Command.run : Command → Loading Unit
  | load id => do let _ ← Library.load id
  | loadPart id => do let _ ← Library.loadPart id
  | request id => Library.request id
  | read id => do let _ ← Library.read id
  | clear => Library.clear
  | dumpTo dir => Library.dumpTo dir
  | takeRequest => do let _ ← Library.takeRequest

/-- The library after a command, which may have failed. -/
def obey (l : Library) (c : Command) : Library :=
  match c.run l with
  | .ok _ l' => l'
  | .error _ l' => l'

theorem Command.steady_run (c : Command) : Steady c.run := by
  cases c with
  | load id => exact .bind (steady_load id) fun _ => .pure _
  | loadPart id => exact .bind (steady_loadPart id) fun _ => .pure _
  | request id => exact steady_request id
  | read id => exact .bind (steady_read id) fun _ => .pure _
  | clear => exact steady_clear
  | dumpTo dir => exact steady_dumpTo dir
  | takeRequest => exact .bind steady_takeRequest fun _ => .pure _

theorem Sound.obey (sound : Sound dir list l) (c : Command) : Sound dir list (l.obey c) := by
  have ends := c.steady_run sound
  unfold Library.obey
  split
  · next done => exact ends.of_ok done
  · next failed => exact ends.of_error failed

/-- **Commands keep a library true to its banks.** -/
theorem Sound.foldl_obey (sound : Sound dir list l) (commands : List Command) :
    Sound dir list (commands.foldl Library.obey l) := by
  induction commands generalizing l with
  | nil => exact sound
  | cons c commands ih => exact ih (sound.obey c)

/-- A library of which nothing has been asked is true to its banks. -/
theorem sound_ofList (dir : String) (list : MemoryList) (files : FileTree) (log : Array Log.Entry) :
    Sound dir list ⟨.ofList dir list, files, log⟩ :=
  sound_of_empty (l := ⟨.ofList dir list, files, log⟩) (Store.inOrder_ofList dir list)
    (Store.data?_ofList dir list)

theorem sound_openDirectory {files : FileTree} (opened : openDirectory files dir = .ok l) :
    Sound dir l.store.list l := by
  unfold openDirectory at opened
  dsimp only at opened
  split at opened
  · cases opened
  · split at opened
    · cases opened
    · cases opened
      exact sound_ofList _ _ _ _

/-- Data in memory can be read from their bank. -/
theorem Sound.read_eq_ok (sound : Sound dir list l) (here : l.store.data? id = some data) :
    ∃ l', Library.read id l = .ok data l' ∧ l'.store = l.store ∧ l'.files = l.files := by
  have given := sound.read id data here
  have ends := read_ends id l
  cases result : Library.read id l with
  | ok data' l' =>
    obtain ⟨given', store, files⟩ := ends.of_ok result
    cases given.symm.trans given'
    exact ⟨l', rfl, store, files⟩
  | error e l' => cases given.symm.trans (ends.of_error result).1

/-- A resource in memory is not looked for. -/
theorem load_of_data? (here : l.store.data? id = some data) : load id l = .ok data l := by
  have ends : Ends (load id) l (fun data' l' => data' = data ∧ l' = l) fun _ _ => False := by
    refine ends_get ?_
    rw [here]
    exact ⟨rfl, rfl⟩
  obtain ⟨_, _, loaded, rfl, rfl⟩ := ends.exists_ok
  exact loaded

/-- A resource that cannot be loaded leaves the store alone. -/
theorem store_of_load_error {e : StoreError} (failed : load id l = .error e l') :
    l'.store = l.store := by
  have ends : Ends (load id) l (fun _ _ => True) fun _ l' => l'.store = l.store := by
    refine ends_get ?_
    split
    · trivial
    · exact (loadFresh_ends id l).mono (fun _ _ _ => trivial) fun _ _ same => same
  exact ends.of_error failed

/-- **The store stays in order whatever is asked of it.** After any commands to a library that has
been opened in a directory, or made for a memory list, and whichever of them have failed, there is a
slot for every resource of the list and for no others. A resource is loaded if its data are in
memory, and otherwise it is not needed, whatever state it had on disk. Data in memory can be read
once more, and a resource that is in memory is loaded without a look at any file. A resource that
cannot be loaded leaves the store as it was. -/
theorem foldl_obey_invariant {files : FileTree} {dir : String} {l₀ : Library}
    (opened : openDirectory files dir = .ok l₀ ∨ ∃ list, l₀ = ofStore (.ofList dir list) files)
    (commands : List Command) :
    let l := commands.foldl obey l₀
    l.store.dir = dir ∧ l.store.list = l₀.store.list ∧
      l.store.states.size = l.store.list.size ∧ l.store.data.size = l.store.list.size ∧
      ∀ id : UInt16,
        (id.toNat < l.store.list.size →
          l.store.state? id
            = some (if (l.store.data? id).isSome then .loaded else .notNeeded)) ∧
        (l.store.list.size ≤ id.toNat → l.store.state? id = none ∧ l.store.data? id = none) ∧
        (∀ data, l.store.data? id = some data →
          (∃ l', read id l = .ok data l' ∧ l'.store = l.store ∧ l'.files = l.files) ∧
          ∀ files' : FileTree,
            load id { l with files := files' } = .ok data { l with files := files' }) ∧
        ∀ e l', load id l = .error e l' → l'.store = l.store := by
  intro l
  have sound₀ : Sound dir l₀.store.list l₀ := by
    rcases opened with opened | ⟨list, rfl⟩
    · exact sound_openDirectory opened
    · exact sound_ofList dir list files #[]
  have sound : Sound dir l₀.store.list l := sound₀.foldl_obey commands
  refine ⟨sound.dir, sound.list, sound.inOrder.states, sound.inOrder.data, fun id =>
    ⟨sound.inOrder.agree id, fun outside => sound.inOrder.none_of_le outside,
      fun data here => ⟨sound.read_eq_ok here, fun files' => ?_⟩, fun e l' => store_of_load_error⟩⟩
  exact load_of_data? here

/-- A resource is dumped beside its bank, another one is longer than the bank, and there is no
third. The part that is asked for in between is not there, and has taken the resource out of memory.
On disk all of them are needed. -/
theorem foldl_obey_invariant_beside :
    let entry (id size : UInt16) : MemoryEntry := ⟨id, .needed, .sound, 0, 1, 0, size, size⟩
    let list : MemoryList := ⟨#[entry 0 3, entry 1 4]⟩
    let files : FileTree := ⟨[(["game"], .directory), (["BANK01", "game"], .file #[1, 2, 3])]⟩
    let commands : List Command :=
      [.dumpTo "game", .load 0, .load 1, .load 2, .loadPart 0x3e80, .load 0]
    let l := commands.foldl obey (ofStore (.ofList "game" list) files)
    l.files.read "game/00_sound.data" = .ok #[1, 2, 3] ∧
      l.store.state? 0 = some .loaded ∧ l.store.state? 1 = some .notNeeded ∧
      l.store.state? 2 = none ∧ (∃ l', read 0 l = .ok #[1, 2, 3] l') ∧
      ∀ files', load 0 { l with files := files' } = .ok #[1, 2, 3] { l with files := files' } := by
  intro entry list files commands
  have ran : let l := commands.foldl obey (ofStore (.ofList "game" list) files)
      l.files.read "game/00_sound.data" = .ok #[1, 2, 3] ∧
        l.store.data? 0 = some #[1, 2, 3] ∧ l.store.data? 1 = none := by decide +kernel
  have made : openDirectory files "game" = .ok (ofStore (.ofList "game" list) files) ∨
      ∃ list', ofStore (.ofList "game" list) files = ofStore (.ofList "game" list') files :=
    .inr ⟨list, rfl⟩
  have invariant := foldl_obey_invariant made commands
  generalize commands.foldl obey (ofStore (.ofList "game" list) files) = l at ran invariant ⊢
  obtain ⟨dumped, here, missing⟩ := ran
  obtain ⟨-, same, -, -, slots⟩ := invariant
  have size : l.store.list.size = 2 := congrArg MemoryList.size same
  have zero := (slots 0).1 (by rw [size]; decide)
  have one := (slots 1).1 (by rw [size]; decide)
  rw [here] at zero
  rw [missing] at one
  obtain ⟨⟨l', reads, -⟩, loads⟩ := (slots 0).2.2.1 _ here
  exact ⟨dumped, zero, one, ((slots 2).2.1 (by rw [size]; decide)).1, ⟨l', reads⟩, loads⟩

end Library

end Cinematic
