import Cinematic.Proofs.MemoryList.Exactness
import Cinematic.Proofs.Store.Parts

/-!
# Dumps are true to what has been read

Whatever is read from a bank to be put into memory is dumped, and a dump that is already there is
written over. What has to be shown is that **each dump holds what has been read last** of its
resource (`Cinematic.Library.dumps_faithful`), although resources are forgotten and read again, and
banks change in between: no dump is ever written over by that of another resource, nor is the file
that the memory list is listed in.

This rests on the names. The name of a dump begins with the id, up to a line that is no digit, and so
the id can be told from the name, **even if there are more digits than two, and whatever the kind is
called** (`Cinematic.MemoryEntry.id_eq_of_dumpName_eq`). In a memory list that has been read the ids
are the places, so no two entries share a name.

The readings themselves are listed beside the library: those of a resource that is not in memory and
can be read (`Cinematic.Library.fresh`). Loading what is in memory takes no reading, nor does a
resource that its bank does not give; and a part may take several, one after the other, even if one
of its resources fails in the end. Nothing is assumed of the files but that dumps can be written, and
that nobody else writes them (`Cinematic.Library.Since`).
-/

namespace Cinematic

open FileTree (Nameable)

/-! ### Names of dumps -/

namespace MemoryEntry

variable {e e' : MemoryEntry}

/-- The digits of a dump's name are those of the id. -/
theorem takeWhile_dumpName (e : MemoryEntry) :
    e.dumpName.toList.takeWhile (· ≠ '_') = (Text.hex 2 e.id.toNat).toList := by
  have digits : ∀ c ∈ (Text.hex 2 e.id.toNat).toList, c ≠ '_' := by
    intro c shown
    obtain ⟨d, below, rfl⟩ := Text.mem_hex shown
    clear shown
    revert d
    decide
  rw [dumpName, String.toList_append, String.toList_append, String.toList_append, List.append_assoc,
    List.append_assoc, List.takeWhile_append_of_pos fun c shown => decide_eq_true (digits c shown)]
  exact List.append_nil _

/-- **The name of a dump tells the id.** -/
theorem id_eq_of_dumpName_eq (same : e.dumpName = e'.dumpName) : e.id = e'.id := by
  have digits : (Text.hex 2 e.id.toNat).toList = (Text.hex 2 e'.id.toNat).toList := by
    rw [← takeWhile_dumpName, ← takeWhile_dumpName, same]
  have shown := Text.digits?_hex 2 e.id.toNat
  rw [digits, Text.digits?_hex] at shown
  exact UInt16.toNat_inj.1 (Option.some.inj shown).symm

/-- **No dump has the name of the listing.** -/
theorem dumpName_ne_dumpListingFile (e : MemoryEntry) : e.dumpName ≠ dumpListingFile := by
  intro same
  have line : '_' ∈ e.dumpName.toList := by
    simp [dumpName]
  rw [same] at line
  revert line
  decide

end MemoryEntry

/-- In a memory list that has been read the ids are the places. -/
theorem MemoryList.toNat_id_of_parse {b : Bytes} {list : MemoryList} (parsed : parse b = .ok list)
    {i : Nat} {e : MemoryEntry} (here : list.entries[i]? = some e) : e.id.toNat = i := by
  obtain ⟨few, -, size⟩ := parse_eq_ok_iff.1 parsed
  obtain ⟨inside, rfl⟩ := Array.getElem?_eq_some_iff.1 here
  rw [(listed_of_parse parsed inside).id_eq]
  rw [size, size_described] at inside
  exact UInt16.toNat_ofNat_of_lt' (Nat.lt_of_lt_of_le inside few)

namespace Library

/-! ### Readings -/

/-- **The reading that loading a resource takes**: its data, if they are not in memory and its bank
gives them. -/
def fresh (l : Library) (id : UInt16) : List (UInt16 × Bytes) :=
  match l.store.data? id, l.store.read l.files id with
  | none, .ok data => [(id, data)]
  | _, _ => []

/-- The readings that loading some resources takes, the latest first. The first one that fails ends
the loading. -/
def freshAll (l : Library) : List UInt16 → List (UInt16 × Bytes)
  | [] => []
  | id :: ids =>
    match load id l with
    | .ok _ l' => l'.freshAll ids ++ l.fresh id
    | .error _ _ => l.fresh id

/-- **The readings of a command** that are put into memory, the latest first. -/
def Command.fresh (l : Library) : Command → List (UInt16 × Bytes)
  | load id => l.fresh id
  | loadPart id =>
    match Part.ofId? id with
    | some part => (l.emptied part).freshAll part.ids
    | none => []
  | request id => if l.store.list.size ≤ id.toNat then [] else l.fresh id
  | _ => []

/-- Why a command fails, if it does. -/
def Command.failure? (l : Library) (c : Command) : Option StoreError :=
  match c.run l with
  | .ok _ _ => none
  | .error x _ => some x

/-- The error says that a dump could not be written. -/
def Undumped (dir : String) (x : StoreError) : Prop :=
  ∃ (e : MemoryEntry) (cause : OsError), x = .io (FileTree.join dir e.dumpName) cause

/-- **A library some time after a directory for dumps has been chosen**, with all readings that have
been put into memory since then, the latest first. Commands have been obeyed, none of which has failed
to write a dump; and others may have changed the files, but not the dumps nor the listing. -/
inductive Since (dir : String) (first : Library) : Library → List (UInt16 × Bytes) → Prop
  | chosen (done : (Command.dumpTo dir).failure? first = none) :
    Since dir first (first.obey (.dumpTo dir)) []
  | obeyed {l : Library} {readings : List (UInt16 × Bytes)} (before : Since dir first l readings)
    (c : Command) (stays : ∀ other, c ≠ .dumpTo other)
    (dumped : ∀ x ∈ c.failure? l, ¬ Undumped dir x) :
    Since dir first (l.obey c) (c.fresh l ++ readings)
  | meanwhile {l : Library} {readings : List (UInt16 × Bytes)} (before : Since dir first l readings)
    (files : FileTree) (spared : ∀ name, IsDump name ∨ name = dumpListingFile →
      files.read (FileTree.join dir name) = l.files.read (FileTree.join dir name)) :
    Since dir first { l with files := files } readings

/-- **Whoever writes a bank writes no dump**, wherever the bank is. -/
theorem read_of_write_bank {files files' : FileTree} {dir dir' : String} {bank : UInt8}
    {content : Bytes} {place : FileTree.Place} (reached : files.reach dir = .ok place)
    (written : files.write (FileTree.join dir' (MemoryEntry.bankName bank)) content = .ok files')
    (name : String) (dumped : IsDump name ∨ name = dumpListingFile) :
    files'.read (FileTree.join dir name) = files.read (FileTree.join dir name) := by
  have beside : FileTree.Beside IsBank files files' :=
    FileTree.beside_write (nameable_bankName bank) ⟨bank, rfl⟩ written
  have found : files'.find (FileTree.join dir name) = files.find (FileTree.join dir name) := by
    rcases dumped with ⟨e, rfl⟩ | rfl
    · exact beside.find_join (nameable_dumpName e) (not_isBank_dumpName e) reached
    · exact beside.find_join nameable_dumpListingFile not_isBank_dumpListingFile reached
  rw [FileTree.read, FileTree.read, found]

/-! ### Dumping -/

/-- The files in the directory are the listing, and for each resource that has been read, what has
been read last. -/
structure Dumps (dir : String) (list : MemoryList) (files : FileTree)
    (readings : List (UInt16 × Bytes)) : Prop where
  listing : files.read (FileTree.join dir dumpListingFile) = .ok list.listing.toUTF8.data
  latest (id : UInt16) (data : Bytes) : readings.lookup id = some data →
    ∃ e, list.get? id = some e ∧ files.read (FileTree.join dir e.dumpName) = .ok data

/-- **A library that dumps to a directory**, and has done so up to now. -/
structure Dumping (dir : String) (list : MemoryList) (l : Library)
    (readings : List (UInt16 × Bytes)) : Prop where
  dumpDir : l.store.dumpDir = some dir
  listed : l.store.list = list
  dumps : Dumps dir list l.files readings

variable {dir : String} {list : MemoryList} {b : Bytes} {l l' first : Library} {id : UInt16}
  {readings : List (UInt16 × Bytes)}

/-- **A dump that is written** puts no other one away. -/
theorem Dumps.write {files files' : FileTree} {e : MemoryEntry} {data : Bytes}
    (dumps : Dumps dir list files readings) (parsed : MemoryList.parse b = .ok list)
    (known : list.get? id = some e)
    (written : files.write (FileTree.join dir e.dumpName) data = .ok files') :
    Dumps dir list files' ((id, data) :: readings) where
  listing := by
    rw [FileTree.read_write_of_ne (nameable_dumpName e) nameable_dumpListingFile
      e.dumpName_ne_dumpListingFile.symm written]
    exact dumps.listing
  latest other data' last := by
    rcases eq_or_ne other id with rfl | apart
    · rw [List.lookup_cons_self] at last
      cases last
      exact ⟨e, known, FileTree.read_write_self (nameable_dumpName e) written⟩
    · rw [List.lookup_cons, beq_false_of_ne apart] at last
      obtain ⟨e', known', here⟩ := dumps.latest other data' last
      refine ⟨e', known', ?_⟩
      rw [FileTree.read_write_of_ne (nameable_dumpName e) (nameable_dumpName e') ?_ written]
      · exact here
      · intro same
        have ids := MemoryEntry.id_eq_of_dumpName_eq same
        refine apart (UInt16.toNat_inj.1 ?_)
        rw [← MemoryList.toNat_id_of_parse parsed known', ids]
        exact MemoryList.toNat_id_of_parse parsed known

theorem Dumping.same (dumping : Dumping dir list l readings) (store : l'.store = l.store)
    (files : l'.files = l.files) : Dumping dir list l' readings where
  dumpDir := by rw [store, dumping.dumpDir]
  listed := by rw [store, dumping.listed]
  dumps := by rw [files]; exact dumping.dumps

/-- A file is written, or the error says that it could not be. -/
theorem write_writes (path : String) (content : Bytes) (l : Library) :
    Ends (Library.write path content) l
      (fun _ l' => l'.store = l.store ∧ l.files.write path content = .ok l'.files)
      fun x _ => ∃ cause, x = .io path cause := by
  refine ends_get ?_
  rcases written : l.files.write path content with cause | files
  · exact ⟨cause, rfl⟩
  · exact ⟨rfl, rfl⟩

/-- **A resource that is read is dumped** before it is put into memory. -/
theorem loadFresh_dumps (dumpDir : l.store.dumpDir = some dir) (id : UInt16) :
    Ends (loadFresh id) l
      (fun data l' => ∃ e, l.store.list.get? id = some e ∧ l.store.read l.files id = .ok data ∧
        l'.store = l.store.hold id data ∧
        l.files.write (FileTree.join dir e.dumpName) data = .ok l'.files)
      fun x l' => Undumped dir x ∨
        (∃ y, l.store.read l.files id = .error y) ∧ l'.store = l.store ∧ l'.files = l.files := by
  refine (loadFresh_fetches id l).mono ?_ ?_
  · rintro data l' ⟨fetched, store, -, e, known, dumped⟩
    unfold Store.entry at known
    split at known
    · next here =>
      exact ⟨e, Except.ok.inj known ▸ here, Store.read_of_fetch fetched, store, dumped dir dumpDir⟩
    · cases known
  · rintro x l' ⟨refused, store, files⟩
    rcases given : l.store.read l.files id with y | data
    · exact .inr ⟨⟨y, rfl⟩, store, files⟩
    · obtain ⟨e, untried⟩ := Store.untried_of_fetch given refused
      unfold Store.tryDump at untried
      rw [dumpDir] at untried
      dsimp only at untried
      split at untried
      · cases untried
      · exact .inl ⟨e, _, (Except.error.inj untried).symm⟩

/-! ### Loading -/

/-- **Loading a resource keeps the dumps up to date.** -/
theorem Dumping.load (dumping : Dumping dir list l readings)
    (parsed : MemoryList.parse b = .ok list) (id : UInt16) :
    Ends (load id) l (fun _ l' => Dumping dir list l' (l.fresh id ++ readings)) fun x l' =>
      ¬ Undumped dir x → Dumping dir list l' (l.fresh id ++ readings) := by
  refine ends_get ?_
  rcases here : l.store.data? id with _ | data
  · refine (loadFresh_dumps dumping.dumpDir id).mono ?_ ?_
    · rintro data l' ⟨e, known, given, store, written⟩
      have fresh : l.fresh id = [(id, data)] := by rw [Library.fresh, here, given]
      rw [dumping.listed] at known
      rw [fresh]
      exact ⟨by rw [store]; exact dumping.dumpDir, by rw [store]; exact dumping.listed,
        dumping.dumps.write parsed known written⟩
    · rintro x l' (undumped | ⟨⟨y, refused⟩, store, files⟩) written
      · exact absurd undumped written
      · have fresh : l.fresh id = [] := by rw [Library.fresh, here, refused]
        rw [fresh]
        exact dumping.same store files
  · have fresh : l.fresh id = [] := by rw [Library.fresh, here]
    rw [fresh]
    exact dumping

/-- **Loading some resources** keeps the dumps up to date. -/
theorem Dumping.mapM_load (dumping : Dumping dir list l readings)
    (parsed : MemoryList.parse b = .ok list) (ids : List UInt16) :
    Ends (ids.mapM Library.load) l
      (fun _ l' => Dumping dir list l' (l.freshAll ids ++ readings)) fun x l' =>
      ¬ Undumped dir x → Dumping dir list l' (l.freshAll ids ++ readings) := by
  induction ids generalizing l readings with
  | nil => exact dumping
  | cons id ids ih =>
    have first := dumping.load parsed id
    rw [List.mapM_cons]
    rcases result : Library.load id l with ⟨data, l₁⟩ | ⟨x, l₁⟩
    · have fresh : l.freshAll (id :: ids) = l₁.freshAll ids ++ l.fresh id := by
        rw [freshAll, result]
      rw [Ends, bind_eq_of_ok result, fresh, List.append_assoc]
      refine (ih (first.of_ok result)).bind ?_
      exact fun _ _ dumping' => dumping'
    · have fresh : l.freshAll (id :: ids) = l.fresh id := by rw [freshAll, result]
      rw [Ends, bind_eq_of_error result, fresh]
      exact first.of_error result

/-- **Commands keep the dumps up to date**, as long as they can write them. -/
theorem Dumping.run (dumping : Dumping dir list l readings)
    (parsed : MemoryList.parse b = .ok list) (c : Command) (stays : ∀ other, c ≠ .dumpTo other) :
    Ends c.run l (fun _ l' => Dumping dir list l' (c.fresh l ++ readings)) fun x l' =>
      ¬ Undumped dir x → Dumping dir list l' (c.fresh l ++ readings) := by
  cases c with
  | load id => exact (dumping.load parsed id).bind fun _ _ dumping' => dumping'
  | loadPart id =>
    refine Ends.bind ?_ fun _ _ dumping' => dumping'
    rcases found : Part.ofId? id with _ | part
    · have fresh : (Command.loadPart id).fresh l = [] := by rw [Command.fresh, found]
      rw [Ends, loadPart, found, fresh]
      exact fun _ => dumping
    · have fresh : (Command.loadPart id).fresh l = (l.emptied part).freshAll part.ids := by
        rw [Command.fresh, found]
      have emptied : Dumping dir list (l.emptied part) readings :=
        ⟨dumping.dumpDir, dumping.listed, dumping.dumps⟩
      rw [Ends, loadPart_eq found, fresh]
      refine (emptied.mapM_load parsed part.ids).bind fun data l₁ loaded => ?_
      exact ⟨loaded.dumpDir, loaded.listed, loaded.dumps⟩
  | request id =>
    refine ends_get ?_
    by_cases other : l.store.list.size ≤ id.toNat
    · have fresh : (Command.request id).fresh l = [] := if_pos other
      rw [if_pos other, fresh]
      rcases Part.ofId? id with _ | part
      · exact fun _ => dumping
      · exact ⟨dumping.dumpDir, dumping.listed, dumping.dumps⟩
    · have fresh : (Command.request id).fresh l = l.fresh id := if_neg other
      rw [if_neg other, fresh]
      exact (dumping.load parsed id).bind fun _ _ dumping' => dumping'
  | read id =>
    refine ((read_ends id l).mono ?_ ?_).bind fun _ _ dumping' => dumping'
    · rintro data l' ⟨-, store, files⟩
      exact dumping.same store files
    · rintro x l' ⟨-, store, files⟩ -
      exact dumping.same store files
  | clear => exact ⟨dumping.dumpDir, dumping.listed, dumping.dumps⟩
  | dumpTo other => exact absurd rfl (stays other)
  | takeRequest => exact ⟨dumping.dumpDir, dumping.listed, dumping.dumps⟩

theorem Dumping.obey (dumping : Dumping dir list l readings)
    (parsed : MemoryList.parse b = .ok list) (c : Command) (stays : ∀ other, c ≠ .dumpTo other)
    (dumped : ∀ x ∈ c.failure? l, ¬ Undumped dir x) :
    Dumping dir list (l.obey c) (c.fresh l ++ readings) := by
  have ends := dumping.run parsed c stays
  rw [Command.failure?] at dumped
  unfold Library.obey
  rcases result : c.run l with ⟨_, l'⟩ | ⟨x, l'⟩
  · exact ends.of_ok result
  · rw [result] at dumped
    exact ends.of_error result (dumped x rfl)

/-- **A directory that has just been chosen** has the listing. -/
theorem dumpTo_lists (dir : String) (l : Library) :
    Ends (dumpTo dir) l (fun _ l' => Dumping dir l.store.list l' []) fun _ _ => True := by
  refine ends_get ?_
  generalize l.files.createDirectory dir = result
  obtain ⟨files, outcome⟩ := result
  have made : Ends (modify fun l => { l with files := files } : Loading Unit) l
    (fun _ l' => l'.store = l.store) fun _ _ => True := rfl
  refine made.bind fun _ l₁ same => ?_
  cases outcome with
  | error cause => trivial
  | ok done =>
    refine ends_get ?_
    refine ((write_writes (FileTree.join dir dumpListingFile) _ l₁).mono (fun _ _ done => done)
      fun _ _ _ => trivial).bind ?_
    rintro _ l₂ ⟨store, written⟩
    have listed : l₂.store.list = l.store.list := by rw [store, same]
    refine ⟨rfl, listed, ?_, nofun⟩
    rw [← same]
    exact FileTree.read_write_self nameable_dumpListingFile written

/-- **What is kept up from the choice of the directory on.** -/
theorem Since.dumping (since : Since dir first l readings)
    (parsed : MemoryList.parse b = .ok first.store.list) :
    Dumping dir first.store.list l readings := by
  induction since with
  | chosen done =>
    have ends := dumpTo_lists dir first
    rw [Command.failure?, Command.run] at done
    rw [Library.obey, Command.run]
    rcases result : dumpTo dir first with ⟨_, l'⟩ | ⟨x, l'⟩
    · exact ends.of_ok result
    · rw [result] at done
      cases done
  | obeyed before c stays dumped ih => exact ih.obey parsed c stays dumped
  | meanwhile before files spared ih =>
    refine ⟨ih.dumpDir, ih.listed, ?_, fun id data last => ?_⟩
    · rw [spared _ (.inr rfl)]
      exact ih.dumps.listing
    · obtain ⟨e, known, here⟩ := ih.dumps.latest id data last
      refine ⟨e, known, ?_⟩
      rw [spared _ (.inl ⟨e, rfl⟩)]
      exact here

/-- **The directory of dumps is true to what has been read.** In a memory list that has been read from a
table no two entries are dumped under one name, and none under the name of the listing.

Whenever a directory for dumps has been chosen, and whatever is asked of the library from then on –
also if it fails, and even if others change the banks meanwhile – the listing is in the directory as
it was, and the dump of each resource that has been read since then holds what has been read last. -/
theorem dumps_faithful (parsed : MemoryList.parse b = .ok list) :
    (∀ (i j : Nat) (e e' : MemoryEntry), list.entries[i]? = some e → list.entries[j]? = some e' →
        e.dumpName = e'.dumpName → i = j) ∧
      (∀ e ∈ list.entries, e.dumpName ≠ dumpListingFile) ∧
      ∀ (dir : String) (first l : Library) (readings : List (UInt16 × Bytes)),
        first.store.list = list → Since dir first l readings →
          l.files.read (FileTree.join dir dumpListingFile) = .ok list.listing.toUTF8.data ∧
            ∀ id data, readings.lookup id = some data →
              ∃ e, list.get? id = some e ∧
                l.files.read (FileTree.join dir e.dumpName) = .ok data := by
  refine ⟨fun i j e e' here here' same => ?_, fun e _ => e.dumpName_ne_dumpListingFile,
    fun dir first l readings listed since => ?_⟩
  · rw [← MemoryList.toNat_id_of_parse parsed here, ← MemoryList.toNat_id_of_parse parsed here',
      MemoryEntry.id_eq_of_dumpName_eq same]
  · have dumping := since.dumping (listed ▸ parsed)
    rw [listed] at dumping
    exact ⟨dumping.dumps.listing, dumping.dumps.latest⟩

/-- A resource is loaded; its bank changes, but it is in memory; a part that the memory list has no
resources for is asked for, so that everything is forgotten; and the resource is read again, and
another one after it. -/
theorem dumps_faithful_again :
    let b : Bytes :=
      #[0, 2, 0, 0, 0, 0, 0, 1, 0, 0, 0, 0, 0, 0, 0, 3, 0, 0, 0, 3,
        0, 0, 0, 0, 0, 0, 0, 1, 0, 0, 0, 3, 0, 0, 0, 1, 0, 0, 0, 1,
        0, 0xff, 0, 0, 0, 0, 0, 0, 0, 0, 0, 0, 0, 0, 0, 0, 0, 0, 0, 0]
    let bitmap : MemoryEntry := ⟨0, .notNeeded, .bitmap, 0, 1, 0, 3, 3⟩
    let sound : MemoryEntry := ⟨1, .notNeeded, .sound, 0, 1, 3, 1, 1⟩
    let list : MemoryList := ⟨#[bitmap, sound]⟩
    let first : Library := .ofStore (.ofList "d" list) (.ofFiles [("d/BANK01", #[1, 2, 3, 4])])
    let one := (first.obey (.dumpTo "out")).obey (.load 0)
    let bank := (one.files.write "d/BANK01" #[7, 8, 9, 4]).toOption.getD one.files
    let two := (({ one with files := bank } : Library).obey (.load 0)).obey (.loadPart 16000)
    let three := (two.obey (.request 0)).obey (.load 1)
    MemoryList.parse b = .ok list ∧
      Since "out" first three [(1, #[4]), (0, #[7, 8, 9]), (0, #[1, 2, 3])] ∧
      three.files.read "out/memlist.txt" = .ok list.listing.toUTF8.data ∧
      three.files.read "out/00_bitmap.data" = .ok #[7, 8, 9] ∧
      three.files.read "out/01_sound.data" = .ok #[4] := by
  intro b bitmap sound list first one bank two three
  have parsed : MemoryList.parse b = .ok list := by decide +kernel
  have since₀ : Since "out" first (first.obey (.dumpTo "out")) [] := .chosen (by decide +kernel)
  -- none of the commands fails to write a dump
  have dumped {failure : Option StoreError} (known : failure = none ∨
      failure = some (.unknownResource 20)) : ∀ x ∈ failure, ¬ Undumped "out" x := by
    rintro x failed ⟨e, cause, rfl⟩
    rcases known with rfl | rfl
    · cases failed
    · cases failed
  have since₁ := since₀.obeyed (.load 0) nofun (dumped (.inl (by decide +kernel)))
  -- the bank is written beside the dumps
  have reached : one.files.reach "out" = .ok ["out"] := by decide +kernel
  have path : FileTree.join "d" (MemoryEntry.bankName 1) = "d/BANK01" := by decide +kernel
  have wrote : one.files.write (FileTree.join "d" (MemoryEntry.bankName 1)) #[7, 8, 9, 4]
      = .ok bank := by
    have possible : (one.files.write "d/BANK01" #[7, 8, 9, 4]).isOk = true := by decide +kernel
    rw [path]
    change _ = Except.ok ((one.files.write "d/BANK01" #[7, 8, 9, 4]).toOption.getD one.files)
    generalize one.files.write "d/BANK01" #[7, 8, 9, 4] = written at possible
    rcases written with cause | files
    · cases possible
    · rfl
  have since₂ := since₁.meanwhile bank (read_of_write_bank reached wrote)
  have since₃ := since₂.obeyed (.load 0) nofun (dumped (.inl (by decide +kernel)))
  have since₄ := since₃.obeyed (.loadPart 16000) nofun (dumped (.inr (by decide +kernel)))
  have since₅ := since₄.obeyed (.request 0) nofun (dumped (.inl (by decide +kernel)))
  have since₆ := since₅.obeyed (.load 1) nofun (dumped (.inl (by decide +kernel)))
  have readings : Command.fresh (two.obey (.request 0)) (.load 1) ++
      (Command.fresh two (.request 0) ++
        (Command.fresh (({ one with files := bank } : Library).obey (.load 0)) (.loadPart 16000) ++
          (Command.fresh { one with files := bank } (.load 0) ++
            (Command.fresh (first.obey (.dumpTo "out")) (.load 0) ++ []))))
      = [(1, #[4]), (0, #[7, 8, 9]), (0, #[1, 2, 3])] := by
    decide +kernel
  have since : Since "out" first three [(1, #[4]), (0, #[7, 8, 9]), (0, #[1, 2, 3])] :=
    readings ▸ since₆
  obtain ⟨-, -, faithful⟩ := dumps_faithful parsed
  obtain ⟨listing, latest⟩ := faithful "out" first three _ rfl since
  obtain ⟨e, known, zero⟩ := latest 0 #[7, 8, 9] rfl
  obtain rfl : bitmap = e := Option.some.inj known
  obtain ⟨e, known, one⟩ := latest 1 #[4] rfl
  obtain rfl : sound = e := Option.some.inj known
  have paths : FileTree.join "out" dumpListingFile = "out/memlist.txt" ∧
      FileTree.join "out" bitmap.dumpName = "out/00_bitmap.data" ∧
      FileTree.join "out" sound.dumpName = "out/01_sound.data" := by
    decide +kernel
  rw [paths.1] at listing
  rw [paths.2.1] at zero
  rw [paths.2.2] at one
  exact ⟨parsed, since, listing, zero, one⟩

end Library

end Cinematic
