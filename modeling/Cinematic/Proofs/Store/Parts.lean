import Cinematic.Proofs.FileTree.Writing
import Cinematic.Proofs.Store.Asking

/-!
# What comes of loading a part

Loading a part forgets everything and then loads the resources of the part, one after the other.
**What comes of it depends on the files alone**, and not on what was in memory: each resource is
either fetched or not (`Cinematic.Store.fetch`), and this can be told for each of them before the
first one is loaded, since the dump of one resource changes nothing for another one
(`Cinematic.Store.fetch_of_beside`).

While the resources are being loaded, just those that have been fetched are in memory, and whatever
could be fetched still can (`Cinematic.Library.Filling`). So if all of them can be fetched, just the
part is in memory in the end. If not, the first one that cannot be says why, those before it are in
memory, everything else is gone, and the part that was current stays so
(`Cinematic.Library.loadPart_determined`).
-/

namespace Cinematic

open FileTree (Beside)

/-- The names of dumps. -/
def IsDump (name : String) : Prop := ∃ e : MemoryEntry, name = e.dumpName

theorem not_isDump_bankName (bank : UInt8) : ¬ IsDump (MemoryEntry.bankName bank) := by
  rintro ⟨e, same⟩
  exact not_isBank_dumpName e ⟨bank, same.symm⟩

/-! ### Fetching -/

namespace Store

/-- What comes of dumping the data of a resource, if resources are dumped. -/
def tryDump (s : Store) (files : FileTree) (e : MemoryEntry) (data : Bytes) :
    Except StoreError Unit :=
  match s.dumpDir with
  | none => .ok ()
  | some dir =>
    match files.write (FileTree.join dir e.dumpName) data with
    | .ok _ => .ok ()
    | .error cause => .error (.io (FileTree.join dir e.dumpName) cause)

/-- **What comes of loading a resource that is not in memory**: its data, or the reason why they
cannot be read, or not be dumped. -/
def fetch (s : Store) (files : FileTree) (id : UInt16) : Except StoreError Bytes := do
  let e ← s.entry id
  let data ← s.read files id
  s.tryDump files e data
  pure data

variable {s : Store} {files files' : FileTree} {id : UInt16} {data : Bytes}

theorem fetch_eq_ok_iff : s.fetch files id = .ok data ↔
    ∃ e, s.entry id = .ok e ∧ s.read files id = .ok data ∧ s.tryDump files e data = .ok () := by
  rw [fetch, bind_eq_ok_iff]
  refine exists_congr fun e => and_congr_right fun _ => ?_
  rw [bind_eq_ok_iff]
  constructor
  · rintro ⟨data', given, dumped⟩
    obtain ⟨⟨⟩, dumped, ⟨⟩⟩ := bind_eq_ok_iff.1 dumped
    exact ⟨given, dumped⟩
  · rintro ⟨given, dumped⟩
    exact ⟨data, given, bind_eq_ok_iff.2 ⟨(), dumped, rfl⟩⟩

theorem read_of_fetch (fetched : s.fetch files id = .ok data) : s.read files id = .ok data := by
  obtain ⟨e, -, given, -⟩ := fetch_eq_ok_iff.1 fetched
  exact given

/-- **What can be read, but not fetched, cannot be dumped.** -/
theorem untried_of_fetch {x : StoreError} (given : s.read files id = .ok data)
    (refused : s.fetch files id = .error x) : ∃ e, s.tryDump files e data = .error x := by
  obtain unknown | ⟨e, -, refused⟩ := bind_eq_error_iff.1 refused
  · obtain ⟨e, known, -⟩ := bind_eq_ok_iff.1 given
    cases known.symm.trans unknown
  · obtain unread | ⟨data', given', refused⟩ := bind_eq_error_iff.1 refused
    · cases given.symm.trans unread
    · cases given.symm.trans given'
      obtain untried | ⟨_, -, done⟩ := bind_eq_error_iff.1 refused
      · exact ⟨e, untried⟩
      · cases done

/-- A resource that can be read is in a directory that is there. -/
theorem reach_of_read (given : s.read files id = .ok data) :
    ∃ place, files.reach s.dir = .ok place := by
  obtain ⟨e, -, given⟩ := bind_eq_ok_iff.1 given
  obtain ⟨bytes, packed, -⟩ := bind_eq_ok_iff.1 given
  unfold readPacked FileTree.readRange at packed
  rcases found : files.find (s.bankPath e) with cause | node
  · rw [found] at packed
    cases packed
  · exact (nameable_bankName e.bank).reach_of_find found

section Beside

variable (beside : Beside IsDump files files') {place : FileTree.Place}
  (banks : files.reach s.dir = .ok place)
include beside banks

/-- **Dumps change nothing for the banks**: a resource is read as before, or cannot be for the same
reason. -/
theorem read_of_beside (id : UInt16) : s.read files' id = s.read files id := by
  have packed (e : MemoryEntry) : s.readPacked files' e = s.readPacked files e := by
    have found : files'.find (s.bankPath e) = files.find (s.bankPath e) :=
      beside.find_join (nameable_bankName e.bank) (not_isDump_bankName e.bank) banks
    rw [readPacked, readPacked, FileTree.readRange, FileTree.readRange, found]
  refine bind_congr_of_ok fun e _ => ?_
  rw [packed]

/-- **Dumps change nothing for what can be fetched**, or dumped in turn. -/
theorem fetch_of_beside
    (dumps : ∀ dir, s.dumpDir = some dir → ∃ place, files.reach dir = .ok place) (id : UInt16) :
    s.fetch files' id = s.fetch files id := by
  refine bind_congr_of_ok fun e _ => ?_
  rw [read_of_beside beside banks]
  refine bind_congr_of_ok fun data _ => ?_
  have tried : s.tryDump files' e data = s.tryDump files e data := by
    unfold tryDump
    rcases dumping : s.dumpDir with _ | dir
    · rfl
    · obtain ⟨place', reached⟩ := dumps dir dumping
      have alike := beside.write_join (nameable_dumpName e) reached data
      dsimp only
      rcases written : files.write (FileTree.join dir e.dumpName) data with cause | after
      · rw [(alike cause).2 written]
      · rcases written' : files'.write (FileTree.join dir e.dumpName) data with cause | after'
        · cases written.symm.trans ((alike cause).1 written')
        · rfl
  rw [tried]

end Beside

end Store

/-! ### Loading -/

namespace Library

variable {l l' : Library} {id : UInt16}

/-- **Dumping does what it was tried for**, and writes nothing but a dump. -/
theorem dump_tries (e : MemoryEntry) (data : Bytes) (l : Library) :
    Ends (dump e data) l
      (fun _ l' => l.store.tryDump l.files e data = .ok () ∧ l'.store = l.store ∧
        Beside IsDump l.files l'.files ∧
        ∀ dir, l.store.dumpDir = some dir →
          l.files.write (FileTree.join dir e.dumpName) data = .ok l'.files)
      fun x l' => l.store.tryDump l.files e data = .error x ∧ l'.store = l.store ∧
        l'.files = l.files := by
  refine ends_get ?_
  unfold Store.tryDump
  rcases dumping : l.store.dumpDir with _ | dir
  · exact ⟨rfl, rfl, .refl _ _, nofun⟩
  · refine ends_get ?_
    dsimp only
    rcases written : l.files.write (FileTree.join dir e.dumpName) data with cause | files
    · exact ⟨rfl, rfl, rfl⟩
    · refine ⟨rfl, rfl, FileTree.beside_write (nameable_dumpName e) ⟨e, rfl⟩ written, ?_⟩
      rintro _ ⟨⟩
      exact written

/-- The resource cannot be fetched for a reason, and nothing has come of trying but a longer log. -/
def Refuses (l : Library) (id : UInt16) (x : StoreError) (l' : Library) : Prop :=
  l.store.fetch l.files id = .error x ∧ l'.store = l.store ∧ l'.files = l.files

/-- **A resource that is not in memory is fetched**, or the reason is given why it cannot be. It is
dumped if resources are, and whatever could be fetched before still can. -/
theorem loadFresh_fetches (id : UInt16) (l : Library) :
    Ends (loadFresh id) l
      (fun data l' => l.store.fetch l.files id = .ok data ∧ l'.store = l.store.hold id data ∧
        (∀ other, l.store.fetch l'.files other = l.store.fetch l.files other) ∧
        ∃ e, l.store.entry id = .ok e ∧ ∀ dir, l.store.dumpDir = some dir →
          l.files.write (FileTree.join dir e.dumpName) data = .ok l'.files)
      (l.Refuses id) := by
  have finds : Ends (entry id) l (fun e l' => l.store.entry id = .ok e ∧ l' = l) (l.Refuses id) := by
    change Ends (answer (l.store.entry id)) l _ _
    rcases found : l.store.entry id with x | e
    · exact ⟨bind_eq_error_iff.2 (.inl found), rfl, rfl⟩
    · exact ⟨rfl, rfl⟩
  refine finds.bind ?_
  rintro e l₁ ⟨known, rfl⟩
  have told : Ends (note (Log.loadingResource id e.kind e.bank)) l₁
      (fun _ l' => l'.store = l₁.store ∧ l'.files = l₁.files) (l₁.Refuses id) := ⟨rfl, rfl⟩
  refine told.bind ?_
  rintro _ l₂ ⟨store₂, files₂⟩
  have reads : Ends (read id) l₂
      (fun data l' => l₁.store.read l₁.files id = .ok data ∧ l'.store = l₁.store ∧
        l'.files = l₁.files) (l₁.Refuses id) := by
    refine (read_ends id l₂).mono ?_ ?_
    · rintro data l' ⟨given, store, files⟩
      rw [store₂, files₂] at given
      exact ⟨given, store.trans store₂, files.trans files₂⟩
    · rintro x l' ⟨refused, store, files⟩
      rw [store₂, files₂] at refused
      refine ⟨bind_eq_error_iff.2 (.inr ⟨e, known, ?_⟩), store.trans store₂, files.trans files₂⟩
      exact bind_eq_error_iff.2 (.inl refused)
  refine reads.bind ?_
  rintro data l₃ ⟨given, store₃, files₃⟩
  have dumps : Ends (dump e data) l₃
      (fun _ l' => l₁.store.fetch l₁.files id = .ok data ∧ l'.store = l₁.store ∧
        (∀ other, l₁.store.fetch l'.files other = l₁.store.fetch l₁.files other) ∧
        ∀ dir, l₁.store.dumpDir = some dir →
          l₁.files.write (FileTree.join dir e.dumpName) data = .ok l'.files)
      (l₁.Refuses id) := by
    refine (dump_tries e data l₃).mono ?_ ?_
    · rintro _ l' ⟨tried, store, beside, dumped⟩
      rw [store₃, files₃] at tried dumped
      rw [files₃] at beside
      obtain ⟨place, banks⟩ := Store.reach_of_read given
      refine ⟨Store.fetch_eq_ok_iff.2 ⟨e, known, given, tried⟩, store.trans store₃,
        Store.fetch_of_beside beside banks fun dir dumping => ?_, dumped⟩
      obtain ⟨place', reached, -⟩ :=
        (nameable_dumpName e).write_join_eq_ok (dumped dir dumping)
      exact ⟨place', reached⟩
    · rintro x l' ⟨refused, store, files⟩
      rw [store₃, files₃] at refused
      refine ⟨bind_eq_error_iff.2 (.inr ⟨e, known, ?_⟩), store.trans store₃, files.trans files₃⟩
      exact bind_eq_error_iff.2 (.inr ⟨data, given, bind_eq_error_iff.2 (.inl refused)⟩)
  refine dumps.bind ?_
  rintro _ l₄ ⟨fetched, store₄, others, dumped⟩
  exact ⟨fetched, congrArg (·.hold id data) store₄, others, e, known, dumped⟩

/-! ### Several resources -/

/-- **Resources that are being loaded into an empty memory**: just those are there that have been
loaded so far, and everything can be fetched that could be in the beginning. -/
structure Filling (first : Library) (contents : UInt16 → Bytes) (loaded : List UInt16)
    (l : Library) : Prop where
  store : l.store = { first.store with states := l.store.states, data := l.store.data }
  inOrder : l.store.InOrder
  here (id : UInt16) : id ∈ loaded → l.store.data? id = some (contents id)
  gone (id : UInt16) : id ∉ loaded → l.store.data? id = none
  fetch (id : UInt16) : l.store.fetch l.files id = first.store.fetch first.files id

namespace Filling

variable {first : Library} {contents : UInt16 → Bytes} {loaded ids before after : List UInt16}

/-- In the beginning memory is empty. -/
theorem start (cleared : l.store = first.store.clear) (files : l.files = first.files) :
    Filling first contents [] l where
  store := by rw [cleared]; rfl
  inOrder := by rw [cleared]; exact Store.inOrder_clear _
  here _ member := absurd member List.not_mem_nil
  gone id _ := by rw [cleared]; exact Store.data?_clear _ id
  fetch id := by rw [cleared, files]; rfl

/-- A resource that is not in memory yet. -/
theorem load_fetches (filling : Filling first contents loaded l) (new : id ∉ loaded) :
    Ends (load id) l
      (fun data l' => first.store.fetch first.files id = .ok data ∧
        (data = contents id → Filling first contents (loaded ++ [id]) l'))
      fun x l' => first.store.fetch first.files id = .error x ∧
        Filling first contents loaded l' := by
  refine ends_get ?_
  rw [filling.gone id new]
  refine (loadFresh_fetches id l).mono ?_ ?_
  · rintro data l' ⟨fetched, store, others, -⟩
    have inside : id.toNat < l.store.data.size := by
      obtain ⟨e, known, -⟩ := Store.fetch_eq_ok_iff.1 fetched
      rw [filling.inOrder.data]
      exact Store.lt_size_of_entry known
    refine ⟨(filling.fetch id).symm.trans fetched, ?_⟩
    rintro rfl
    refine ⟨?_, ?_, fun other member => ?_, fun other missing => ?_, fun other => ?_⟩
    · rw [store, filling.store]
      rfl
    · rw [store]
      exact filling.inOrder.hold id _
    · rw [store]
      rcases eq_or_ne other id with rfl | apart
      · exact Store.data?_hold_self inside _
      · rw [Store.data?_hold_of_ne apart]
        refine filling.here other ((List.mem_append.1 member).resolve_right fun last => ?_)
        exact apart (List.mem_singleton.1 last)
    · rw [List.mem_append, List.mem_singleton, not_or] at missing
      rw [store, Store.data?_hold_of_ne missing.2]
      exact filling.gone other missing.1
    · rw [store]
      exact (others other).trans (filling.fetch other)
  · rintro x l' ⟨refused, store, files⟩
    refine ⟨(filling.fetch id).symm.trans refused, ?_⟩
    exact ⟨by rw [store]; exact filling.store, by rw [store]; exact filling.inOrder,
      by rw [store]; exact filling.here, by rw [store]; exact filling.gone,
      by rw [store, files]; exact filling.fetch⟩

theorem load_of_ok (filling : Filling first contents loaded l) (new : id ∉ loaded)
    (fetched : first.store.fetch first.files id = .ok (contents id)) :
    ∃ l', load id l = .ok (contents id) l' ∧ Filling first contents (loaded ++ [id]) l' := by
  have ends := filling.load_fetches new
  rcases result : load id l with ⟨data, l'⟩ | ⟨x, l'⟩
  · obtain ⟨fetched', filled⟩ := ends.of_ok result
    cases fetched.symm.trans fetched'
    exact ⟨l', rfl, filled rfl⟩
  · cases fetched.symm.trans (ends.of_error result).1

theorem load_of_error (filling : Filling first contents loaded l) (new : id ∉ loaded)
    {e : StoreError} (refused : first.store.fetch first.files id = .error e) :
    ∃ l', load id l = .error e l' ∧ Filling first contents loaded l' := by
  have ends := filling.load_fetches new
  rcases result : load id l with ⟨data, l'⟩ | ⟨x, l'⟩
  · cases refused.symm.trans (ends.of_ok result).1
  · obtain ⟨refused', filled⟩ := ends.of_error result
    cases refused.symm.trans refused'
    exact ⟨l', rfl, filled⟩

/-- **Resources that can all be fetched are loaded**, one after the other. -/
theorem mapM_load_of_ok (filling : Filling first contents loaded l) (apart : (loaded ++ ids).Nodup)
    (fetched : ∀ q ∈ ids, first.store.fetch first.files q = .ok (contents q)) :
    ∃ l', ids.mapM load l = .ok (ids.map contents) l' ∧
      Filling first contents (loaded ++ ids) l' := by
  induction ids generalizing loaded l with
  | nil => exact ⟨l, rfl, by rwa [List.append_nil]⟩
  | cons id ids ih =>
    have new : id ∉ loaded := fun member =>
      (List.nodup_append.1 apart).2.2 id member id List.mem_cons_self rfl
    obtain ⟨l₁, done, filling₁⟩ := filling.load_of_ok new (fetched id List.mem_cons_self)
    rw [List.append_cons] at apart
    obtain ⟨l', rest, filling'⟩ := ih filling₁ apart fun q member =>
      fetched q (List.mem_cons_of_mem _ member)
    refine ⟨l', ?_, by rwa [List.append_cons]⟩
    rw [List.mapM_cons, bind_eq_of_ok done, bind_eq_of_ok rest]
    rfl

/-- **The first resource that cannot be fetched ends the loading**, and those before it stay in
memory. -/
theorem mapM_load_of_error (filling : Filling first contents loaded l)
    (apart : (loaded ++ (before ++ id :: after)).Nodup)
    (fetched : ∀ q ∈ before, first.store.fetch first.files q = .ok (contents q)) {e : StoreError}
    (refused : first.store.fetch first.files id = .error e) :
    ∃ l', (before ++ id :: after).mapM load l = .error e l' ∧
      Filling first contents (loaded ++ before) l' := by
  rw [← List.append_assoc, List.append_cons] at apart
  obtain ⟨apart, -, -⟩ := List.nodup_append.1 apart
  obtain ⟨apart, -, others⟩ := List.nodup_append.1 apart
  obtain ⟨l₁, done, filling₁⟩ := filling.mapM_load_of_ok apart fetched
  have new : id ∉ loaded ++ before := fun member => others id member id List.mem_cons_self rfl
  obtain ⟨l', failed, filling'⟩ := filling₁.load_of_error new refused
  refine ⟨l', ?_, filling'⟩
  rw [List.mapM_append, bind_eq_of_ok done, List.mapM_cons]
  exact bind_eq_of_error (bind_eq_of_error failed)

end Filling

end Library

/-! ### Parts -/

/-- The ids of a part's resources, in the order in which they are loaded. -/
def Part.ids (part : Part) : List UInt16 := part.resources.map UInt8.toUInt16

/-- A part with the data of its resources. -/
def Part.withContents (part : Part) (contents : UInt16 → Bytes) : LoadedPart where
  part := part
  palettes := contents part.palettes.toUInt16
  bytecode := contents part.bytecode.toUInt16
  cinematic := contents part.cinematic.toUInt16
  characters := if part.characters = 0 then none else some (contents part.characters.toUInt16)

/-- **The store has just some resources in memory**, and all others are not needed. -/
structure Store.Comprises (s : Store) (contents : UInt16 → Bytes) (loaded : List UInt16) : Prop where
  inOrder : s.InOrder
  here (id : UInt16) : id ∈ loaded → s.state? id = some .loaded ∧ s.data? id = some (contents id)
  gone (id : UInt16) : id ∉ loaded →
    s.data? id = none ∧ (id.toNat < s.list.size → s.state? id = some .notNeeded)

namespace Library

/-- The resources of a part differ from each other. -/
theorem nodup_ids {part : Part} (member : part ∈ Part.all) : part.ids.Nodup := by
  revert part
  decide

/-- Every part has palettes, bytecode and scenes, and some have characters. -/
theorem ids_eq {part : Part} (member : part ∈ Part.all) :
    part.ids = [part.palettes.toUInt16, part.bytecode.toUInt16, part.cinematic.toUInt16] ++
      if part.characters = 0 then [] else [part.characters.toUInt16] := by
  revert part
  decide

/-- The data of a part's resources put in their places. -/
def gather (part : Part) (data : List Bytes) : LoadedPart where
  part := part
  palettes := data.getD 0 #[]
  bytecode := data.getD 1 #[]
  cinematic := data.getD 2 #[]
  characters := data[3]?

theorem gather_map {part : Part} (member : part ∈ Part.all) (contents : UInt16 → Bytes) :
    gather part (part.ids.map contents) = part.withContents contents := by
  rw [ids_eq member, gather, Part.withContents]
  split
  · rfl
  · rfl

/-- **The resources of a part are loaded in one go.** -/
theorem loadResources_eq {part : Part} (member : part ∈ Part.all) :
    loadResources part = (do
      clear
      let data ← part.ids.mapM load
      pure (gather part data)) := by
  rw [ids_eq member, loadResources]
  split
  · simp [gather]
  · simp [gather]

theorem Filling.comprises {first : Library} {contents : UInt16 → Bytes} {loaded : List UInt16}
    {l : Library} (filling : Filling first contents loaded l) :
    l.store.Comprises contents loaded where
  inOrder := filling.inOrder
  here id member := by
    refine ⟨?_, filling.here id member⟩
    rw [filling.inOrder.state?_eq_loaded_iff, filling.here id member]
    rfl
  gone id missing := by
    refine ⟨filling.gone id missing, fun inside => ?_⟩
    rw [filling.inOrder.agree id inside, filling.gone id missing]
    rfl

/-- The library when everything has been forgotten and a part is about to be loaded. -/
def emptied (l : Library) (part : Part) : Library :=
  ⟨l.store.clear, l.files, l.log.push (Log.loadingPart part)⟩

section LoadPart

variable {l : Library} {id r : UInt16} {part : Part} {contents : UInt16 → Bytes}
  {before after : List UInt16} (found : Part.ofId? id = some part)
include found

theorem loadPart_eq (l : Library) :
    loadPart id l = (do
      let data ← part.ids.mapM load
      update fun s => { s with currentPart := some id, requestedPart := none }
      pure (gather part data) : Loading LoadedPart) (l.emptied part) := by
  rw [loadPart, found]
  dsimp only
  rw [loadResources_eq (List.mem_of_find?_eq_some found)]
  simp only [bind_assoc, pure_bind]
  rfl

/-- **A part whose resources can all be fetched** is loaded, and becomes the current one. -/
theorem loadPart_of_ok
    (fetched : ∀ q ∈ part.ids, l.store.fetch l.files q = .ok (contents q)) :
    ∃ l', loadPart id l = .ok (part.withContents contents) l' ∧
      l'.store = { l.store with
        states := l'.store.states
        data := l'.store.data
        currentPart := some id
        requestedPart := none } ∧
      l'.store.Comprises contents part.ids ∧
      ∀ q, l'.store.fetch l'.files q = l.store.fetch l.files q := by
  have member : part ∈ Part.all := List.mem_of_find?_eq_some found
  have filling : Filling l contents [] (l.emptied part) := .start rfl rfl
  have apart : ([] ++ part.ids).Nodup := nodup_ids member
  obtain ⟨l₁, loaded, filling₁⟩ := filling.mapM_load_of_ok apart fetched
  have comprises := filling₁.comprises
  refine ⟨{ l₁ with store := { l₁.store with currentPart := some id, requestedPart := none } },
    ?_, ?_, ⟨comprises.inOrder.of_same_tables rfl rfl rfl, comprises.here, comprises.gone⟩,
    filling₁.fetch⟩
  · rw [loadPart_eq found, bind_eq_of_ok loaded, gather_map member]
    rfl
  · dsimp only
    rw [filling₁.store]

/-- **A part with a resource that cannot be fetched** is given up there. -/
theorem loadPart_of_error (resources : part.ids = before ++ r :: after) {e : StoreError}
    (fetched : ∀ q ∈ before, l.store.fetch l.files q = .ok (contents q))
    (refused : l.store.fetch l.files r = .error e) :
    ∃ l', loadPart id l = .error e l' ∧
      l'.store = { l.store with states := l'.store.states, data := l'.store.data } ∧
      l'.store.Comprises contents before := by
  have filling : Filling l contents [] (l.emptied part) := .start rfl rfl
  have apart : ([] ++ (before ++ r :: after)).Nodup :=
    resources ▸ nodup_ids (List.mem_of_find?_eq_some found)
  obtain ⟨l', failed, filling'⟩ := filling.mapM_load_of_error apart fetched refused
  refine ⟨l', ?_, filling'.store, filling'.comprises⟩
  rw [loadPart_eq found, resources]
  exact bind_eq_of_error failed

end LoadPart

/-- **What comes of loading a part is told by the files.** An id that is not that of a part is
refused, and nothing changes. What is in memory makes no difference for any other. If all resources
of the part can be fetched – read and, if resources are dumped, dumped – the part is loaded with what
was read, and still can be; just its resources are in memory, and all others are not needed. The
part is the current one, and none is waited for. If not, the first resource that cannot be fetched
gives the reason. Just those before it are in memory, all others are not needed, and the current
part and the one that is waited for are what they were. -/
theorem loadPart_determined (l : Library) (id : UInt16) :
    (Part.isId id = false → loadPart id l = .error (.unknownPart id) l) ∧
      (Part.isId id = true → ∃ part, Part.ofId? id = some part ∧
        (∀ states data, loadPart id
          { l with store := { l.store with states := states, data := data } } = loadPart id l) ∧
        (∀ contents : UInt16 → Bytes,
          (∀ q ∈ part.ids, l.store.fetch l.files q = .ok (contents q)) →
          ∃ l', loadPart id l = .ok (part.withContents contents) l' ∧
            l'.store = { l.store with
              states := l'.store.states
              data := l'.store.data
              currentPart := some id
              requestedPart := none } ∧
            l'.store.Comprises contents part.ids ∧
            ∀ q ∈ part.ids, l.store.read l.files q = .ok (contents q) ∧
              l'.store.read l'.files q = .ok (contents q)) ∧
        ∀ (contents : UInt16 → Bytes) (before : List UInt16) (r : UInt16) (after : List UInt16)
          (e : StoreError), part.ids = before ++ r :: after →
          (∀ q ∈ before, l.store.fetch l.files q = .ok (contents q)) →
          l.store.fetch l.files r = .error e →
          ∃ l', loadPart id l = .error e l' ∧
            l'.store = { l.store with states := l'.store.states, data := l'.store.data } ∧
            l'.store.Comprises contents before) := by
  constructor
  · intro other
    have unknown : Part.ofId? id = none := by
      rw [← Option.not_isSome_iff_eq_none, Part.isSome_ofId?_iff, other]
      exact Bool.false_ne_true
    rw [loadPart, unknown]
    rfl
  · intro isId
    obtain ⟨part, found⟩ := Option.isSome_iff_exists.1 ((Part.isSome_ofId?_iff id).2 isId)
    refine ⟨part, found, fun states data => ?_, fun contents fetched => ?_,
      fun contents before r after e resources fetched refused =>
        loadPart_of_error found resources fetched refused⟩
    · rw [loadPart_of_clear found, loadPart_of_clear found l]
      rfl
    · obtain ⟨l', loaded, store, comprises, again⟩ := loadPart_of_ok found fetched
      refine ⟨l', loaded, store, comprises, fun q member => ⟨?_, ?_⟩⟩
      · exact Store.read_of_fetch (fetched q member)
      · exact Store.read_of_fetch ((again q).trans (fetched q member))

/-- A game without one of its banks, and the same game with it. Resources are dumped beside the
banks, a resource of no part is in memory, and another part is waited for. -/
theorem loadPart_determined_cut :
    let list : MemoryList := ⟨(Array.range 23).map fun i =>
      ⟨i.toUInt16, .ofByte 0, .ofByte 0, 0, if i = 0x16 then 2 else 1, 0, 2, 2⟩⟩
    let s : Store := { (Store.ofList "game" list).hold 0 #[9] with
      dumpDir := some "game", requestedPart := some 0x3e81 }
    let cut : FileTree := ⟨[(["game"], .directory), (["BANK01", "game"], .file #[1, 2])]⟩
    let whole : FileTree := cut.put ["BANK02", "game"] (.file #[3, 4])
    s.data? 0 = some #[9] ∧
      (∃ l', loadPart 0x3e80 ⟨s, cut, #[]⟩ = .error (.io "game/BANK02" .noSuchFile) l' ∧
        l'.store.state? 0x15 = some .loaded ∧ l'.store.state? 0x16 = some .notNeeded ∧
        l'.store.data? 0 = none ∧ l'.store.requestedPart = some 0x3e81) ∧
      ∃ part l', loadPart 0x3e80 ⟨s, whole, #[]⟩ = .ok part l' ∧
        part.bytecode = #[1, 2] ∧ part.cinematic = #[3, 4] ∧ part.characters = none ∧
        l'.store.state? 0x16 = some .loaded ∧ l'.store.data? 0 = none ∧
        l'.store.requestedPart = none := by
  intro list s cut whole
  have isId : Part.isId 0x3e80 = true := by decide
  let part : Part := ⟨0x3e80, "protection", 0x14, 0x15, 0x16, 0x00⟩
  have found : Part.ofId? 0x3e80 = some part := by decide
  have known : s.data? 0 = some #[9] := by decide +kernel
  have inside : (0x16 : UInt16).toNat < list.size := by decide +kernel
  refine ⟨known, ?_, ?_⟩
  · obtain ⟨p, found', -, -, cutOff⟩ := (loadPart_determined ⟨s, cut, #[]⟩ 0x3e80).2 isId
    cases found.symm.trans found'
    have fetched : s.fetch cut 0x14 = .ok #[1, 2] ∧ s.fetch cut 0x15 = .ok #[1, 2] := by
      decide +kernel
    have refused : s.fetch cut 0x16 = .error (.io "game/BANK02" .noSuchFile) := by decide +kernel
    obtain ⟨l', failed, store, comprises⟩ :=
      cutOff (fun _ => #[1, 2]) [0x14, 0x15] 0x16 [] _ rfl (by simpa using fetched) refused
    refine ⟨l', failed, (comprises.here 0x15 (by decide)).1, ?_, (comprises.gone 0 (by decide)).1, ?_⟩
    · refine (comprises.gone 0x16 (by decide)).2 ?_
      rw [store]
      exact inside
    · rw [store]
  · obtain ⟨p, found', -, loads, -⟩ := (loadPart_determined ⟨s, whole, #[]⟩ 0x3e80).2 isId
    cases found.symm.trans found'
    let contents : UInt16 → Bytes := fun q => if q = 0x16 then #[3, 4] else #[1, 2]
    have fetched : s.fetch whole 0x14 = .ok #[1, 2] ∧ s.fetch whole 0x15 = .ok #[1, 2] ∧
        s.fetch whole 0x16 = .ok #[3, 4] := by
      decide +kernel
    have all : ∀ q ∈ part.ids, s.fetch whole q = .ok (contents q) := by
      change ∀ q ∈ [0x14, 0x15, 0x16], s.fetch whole q = .ok (contents q)
      simpa [contents] using fetched
    obtain ⟨l', loaded, store, comprises, -⟩ := loads contents all
    refine ⟨_, l', loaded, rfl, rfl, rfl, (comprises.here 0x16 (by decide)).1,
      (comprises.gone 0 (by decide)).1, ?_⟩
    rw [store]

end Library

end Cinematic
