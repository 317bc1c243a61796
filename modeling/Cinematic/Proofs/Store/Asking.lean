import Cinematic.Proofs.MemoryList.Table
import Cinematic.Proofs.Store.Soundness
import Cinematic.Session.Stage
import Cinematic.Machine.Execute

/-!
# What an id asks for

One instruction loads resources and asks for parts, and the id decides which. It is looked at twice.
The library takes an id for that of a resource **if the memory list is long enough**; the machine
takes it for that of a part **if it is in the range of parts** (`Cinematic.Part.isId`), and then
neither expects a picture nor draws one.

The two readings of an id are compared here. A library takes an id for that of a part, which we say
without looking at how it answers (`Cinematic.Library.Notes`), if both tests say so
(`Cinematic.Library.notes_iff`). Hence the readings agree as long as the memory list ends before the
parts begin, with its entry 15999 at the latest, and **no longer list is read in the same way by
both** (`Cinematic.Library.request_readings`). Longer lists exist: on one of them the picture with
the id of the first part is loaded, the part is not asked for, and the machine notes a part and
draws nothing (`Cinematic.Library.request_of_long_list`).
-/

namespace Cinematic

/-- There is a part for every id in the range, and for no other. -/
theorem Part.exists_id_iff {n : Nat} :
    (∃ part ∈ all, part.id.toNat = n) ↔ 0x3e80 ≤ n ∧ n ≤ 0x3e89 := by
  constructor
  · rintro ⟨part, member, rfl⟩
    have ranges : ∀ part ∈ all, 0x3e80 ≤ part.id.toNat ∧ part.id.toNat ≤ 0x3e89 := by decide
    exact ranges part member
  · rintro ⟨first, last⟩
    have places : ∀ k < 10, ∃ part ∈ all, part.id.toNat = 0x3e80 + k := by decide
    obtain ⟨part, member, place⟩ := places (n - 0x3e80) (by omega)
    exact ⟨part, member, by omega⟩

/-- **The parts are all there are ids in their range for.** -/
theorem Part.isSome_ofId?_iff (id : UInt16) : (ofId? id).isSome = true ↔ isId id = true := by
  rw [ofId?, List.find?_isSome, isId, decide_eq_true_iff, UInt16.le_iff_toNat_le,
    UInt16.le_iff_toNat_le]
  simp only [beq_iff_eq, ← UInt16.toNat_inj]
  exact exists_id_iff

namespace Library

variable {l : Library} {id : UInt16}

/-! ### The library's reading -/

/-- The library with a part waited for, or none. -/
def awaiting (l : Library) (requested : Option UInt16) : Library :=
  { l with store := { l.store with requestedPart := requested } }

/-- The library with a part noted and the log told. -/
def noting (l : Library) (id : UInt16) : Library :=
  { l with
    store := { l.store with requestedPart := some id }
    log := l.log.push (Log.partRequestedOfStore id) }

/-- **The library takes an id for that of a part**: it grants the request, and whatever part was
waited for, it is this one from now on. -/
def Notes (l : Library) (id : UInt16) : Prop :=
  ∀ requested, ∃ l', request id (l.awaiting requested) = .ok () l' ∧
    l'.store.requestedPart = some id

/-- An id behind the memory list names a part or nothing. -/
theorem request_of_le (outside : l.store.list.size ≤ id.toNat) :
    request id l =
      if Part.isId id = true then .ok () (l.noting id) else .error (.unknownPart id) l := by
  change (if l.store.list.size ≤ id.toNat then _ else _ : Loading Unit) l = _
  rw [if_pos outside]
  have known := Part.isSome_ofId?_iff id
  cases found : Part.ofId? id with
  | none =>
    rw [found] at known
    rw [if_neg fun isId => Bool.false_ne_true (known.2 isId)]
    rfl
  | some part =>
    rw [found] at known
    rw [if_pos (known.1 rfl)]
    rfl

/-- An id in the memory list names a resource, whatever else it may name. -/
theorem request_of_lt (inside : id.toNat < l.store.list.size) :
    request id l = (do let _ ← load id : Loading Unit) l := by
  change (if l.store.list.size ≤ id.toNat then _ else _ : Loading Unit) l = _
  rw [if_neg (Nat.not_le.2 inside)]

/-- Loading leaves alone which part is waited for. -/
theorem request_ends_of_lt (inside : id.toNat < l.store.list.size) :
    let same (l' : Library) := l'.store.requestedPart = l.store.requestedPart
    Ends (request id) l (fun _ => same) fun _ => same := by
  intro same
  rw [Ends, request_of_lt inside]
  have loads : Ends (load id) l (fun _ => same) fun _ => same :=
    (load_ends id l).mono (fun _ _ loaded => loaded.1.requestedPart) fun _ _ follows =>
      follows.requestedPart
  exact loads.bind fun _ _ kept => kept

/-- **An id is taken for that of a part if it is one and the memory list ends before it.** -/
theorem notes_iff (l : Library) (id : UInt16) :
    l.Notes id ↔ Part.isId id = true ∧ l.store.list.size ≤ id.toNat := by
  constructor
  · intro notes
    obtain ⟨l', granted, noted⟩ := notes none
    rcases Nat.lt_or_ge id.toNat l.store.list.size with inside | outside
    · -- a resource that is loaded does not make anybody wait for a part
      have kept := (request_ends_of_lt (l := l.awaiting none) inside).of_ok granted
      cases noted.symm.trans kept
    · refine ⟨?_, outside⟩
      rw [request_of_le (l := l.awaiting none) outside] at granted
      by_contra other
      rw [if_neg other] at granted
      cases granted
  · rintro ⟨isId, outside⟩ requested
    refine ⟨(l.awaiting requested).noting id, ?_, rfl⟩
    rw [request_of_le (l := l.awaiting requested) outside, if_pos isId]

/-! ### The two readings -/

/-- **How the two readings of an id compare.** The library takes an id for that of a part if the
machine does and the memory list ends before it, so that the two agree about all ids if the list has
no more than 16000 entries, and about some not if it has more. An id that is not that of a part
never changes which part is waited for, whether or not the request is granted. The id of a part
behind the list is noted, and nothing is loaded; one in the list is loaded as any other entry is,
and nothing is noted. -/
theorem request_readings (l : Library) :
    (∀ id, l.Notes id ↔ Part.isId id = true ∧ l.store.list.size ≤ id.toNat) ∧
      ((∀ id, Part.isId id = true ↔ l.Notes id) ↔ l.store.list.size ≤ 0x3e80) ∧
      (∀ id, Part.isId id = false →
        let same (l' : Library) := l'.store.requestedPart = l.store.requestedPart
        Ends (request id) l (fun _ => same) fun _ => same) ∧
      (∀ id, Part.isId id = true → l.store.list.size ≤ id.toNat →
        request id l = .ok () (l.noting id)) ∧
      ∀ id, Part.isId id = true → id.toNat < l.store.list.size →
        request id l = (do let _ ← load id : Loading Unit) l ∧
          let same (l' : Library) := l'.store.requestedPart = l.store.requestedPart
          Ends (request id) l (fun _ => same) fun _ => same := by
  refine ⟨notes_iff l, ⟨fun agree => ?_, fun short id => ?_⟩, fun id other => ?_,
    fun id isId outside => ?_, fun id isId inside => ?_⟩
  · -- the first part is the first id about which they can differ
    have first := (notes_iff l Part.firstId).1 ((agree Part.firstId).1 (by decide))
    exact first.2
  · rw [notes_iff]
    refine ⟨fun isId => ⟨isId, ?_⟩, fun both => both.1⟩
    have first := UInt16.le_iff_toNat_le.1 (of_decide_eq_true isId).1
    exact Nat.le_trans short first
  · rcases Nat.lt_or_ge id.toNat l.store.list.size with inside | outside
    · exact request_ends_of_lt inside
    · rw [Ends, request_of_le outside, if_neg (by rw [other]; exact Bool.false_ne_true)]
  · rw [request_of_le outside, if_pos isId]
  · exact ⟨request_of_lt inside, request_ends_of_lt inside⟩

/-- A resource that can be read is loaded, if it need not be dumped. -/
theorem exists_load_of_read {data : Bytes} (missing : l.store.data? id = none)
    (undumped : l.store.dumpDir = none) (given : l.store.read l.files id = .ok data) :
    ∃ data' l', load id l = .ok data' l' := by
  obtain ⟨e, known, -⟩ := bind_eq_ok_iff.1 given
  have loads : Ends (load id) l (fun _ _ => True) fun _ _ => False := by
    refine ends_get ?_
    rw [missing]
    have finds : Ends (entry id) l (fun _ l' => l' = l) fun _ _ => False := by
      change Ends (answer (l.store.entry id)) l _ _
      rw [known]
      exact rfl
    refine finds.bind ?_
    rintro e l₁ rfl
    have told : Ends (note (Log.loadingResource id e.kind e.bank)) l₁
      (fun _ l' => l'.store = l₁.store ∧ l'.files = l₁.files) fun _ _ => False := ⟨rfl, rfl⟩
    refine told.bind ?_
    rintro _ l₂ ⟨store₂, files₂⟩
    have reads : Ends (read id) l₂ (fun _ l' => l'.store = l₁.store) fun _ _ => False := by
      refine (read_ends id l₂).mono (fun _ l' here => here.2.1.trans store₂) ?_
      rintro cause l' ⟨refused, -⟩
      rw [store₂, files₂, given] at refused
      cases refused
    refine reads.bind fun data l₃ store₃ => ?_
    have dumps : Ends (dump e data) l₃ (fun _ _ => True) fun _ _ => False := by
      refine ends_get ?_
      rw [store₃, undumped]
      trivial
    exact dumps.bind fun _ _ _ => trivial
  obtain ⟨data', l', loaded, -⟩ := loads.exists_ok
  exact ⟨data', l', loaded⟩

/-- **A resource with the id of a part is loaded**, no part is waited for because of it, and the
machine goes on as if it had asked for the part. -/
theorem executeLoad_of_lt {stage : Stage} {data : Bytes} (isId : Part.isId id = true)
    (inside : id.toNat < stage.library.store.list.size) (inOrder : stage.library.store.InOrder)
    (missing : stage.library.store.data? id = none) (undumped : stage.library.store.dumpDir = none)
    (given : stage.library.store.read stage.library.files id = .ok data) :
    ∃ l', request id stage.library = .ok () l' ∧
      l'.store.requestedPart = stage.library.store.requestedPart ∧
      l'.store.state? id = some .loaded ∧
      Machine.executeLoad Stage.host stage id
        = (.ok (), Stage.note { stage with library := l' } (Log.partRequested id)) := by
  obtain ⟨data', l', loaded⟩ := exists_load_of_read missing undumped given
  have granted : request id stage.library = .ok () l' := by
    rw [request_of_lt inside]
    change EStateM.bind (load id) _ stage.library = _
    rw [EStateM.bind, loaded]
    rfl
  have answered : Stage.host.load stage id = (.ok (), { stage with library := l' }) := by
    change stage.load id = _
    rw [Stage.load, granted]
  refine ⟨l', granted, (request_ends_of_lt inside).of_ok granted, ?_, ?_⟩
  · exact (((load_ends id stage.library).of_ok loaded).2 inOrder).1
  · rw [Machine.executeLoad, answered]
    dsimp only
    rw [if_pos isId]
    rfl

/-- **A memory list on which the readings differ**, and which is read from its table. It has 16001
pictures, and the last of them has the id of the first part. Asked for this id, the library loads
the picture and waits for no part; the machine goes on as if it had asked for the part, and does not
draw the picture that was loaded. -/
theorem request_of_long_list :
    let entry (i : Nat) : MemoryEntry := ⟨i.toUInt16, .notNeeded, .bitmap, 0, 1, 0, 1, 1⟩
    let list : MemoryList := ⟨(Array.range 16001).map entry⟩
    let files : FileTree := ⟨[(["game"], .directory), (["BANK01", "game"], .file #[7])]⟩
    let stage : Stage := .ofLibrary (ofStore (.ofList "game" list) files)
    MemoryList.parse list.toBytes = .ok list ∧ Part.isId 0x3e80 = true ∧
      ¬ (Part.isId 0x3e80 = true ↔ stage.library.Notes 0x3e80) ∧
      ∃ l', request 0x3e80 stage.library = .ok () l' ∧ l'.store.requestedPart = none ∧
        l'.store.state? 0x3e80 = some .loaded ∧
        Machine.executeLoad Stage.host stage 0x3e80
          = (.ok (), Stage.note { stage with library := l' } (Log.partRequested 0x3e80)) := by
  intro entry list
  have size : list.size = 16001 := by simp [list, MemoryList.size]
  have last : list.get? 0x3e80 = some (entry 16000) := by simp [list, MemoryList.get?]
  have parsed : MemoryList.parse list.toBytes = .ok list := by
    refine MemoryList.parse_toBytes (by rw [size]; decide) fun i inside => ?_
    have here : list.entries[i] = entry i := by simp [list]
    have continues : Resource.Kind.bitmap.toByte ≠ Resource.Kind.endMark := by decide
    rw [here]
    exact ⟨rfl, rfl, continues⟩
  -- from here on only these facts are used, and not how the list was made
  clear_value list
  intro files stage
  have inside : (0x3e80 : UInt16).toNat < stage.library.store.list.size := by
    change _ < list.size
    rw [size]
    decide
  have given : stage.library.store.read stage.library.files 0x3e80 = .ok #[7] := by
    have known : stage.library.store.entry 0x3e80 = .ok (entry 16000) := by
      rw [Store.entry, show stage.library.store.list.get? 0x3e80 = _ from last]
    have bank : stage.library.files.readRange (stage.library.store.bankPath (entry 16000))
        (entry 16000).bankOffset.toNat (entry 16000).packedSize.toNat = .ok #[7] := by
      change files.readRange (FileTree.join "game" (MemoryEntry.bankName 1)) 0 1 = _
      decide +kernel
    have bytes : stage.library.store.readPacked stage.library.files (entry 16000) = .ok #[7] := by
      rw [Store.readPacked, bank]
    rw [Store.read, known]
    change (stage.library.store.readPacked stage.library.files (entry 16000) >>= _) = _
    rw [bytes]
    rfl
  have isId : Part.isId 0x3e80 = true := by decide
  refine ⟨parsed, isId, fun agree => ?_, ?_⟩
  · have outside := ((notes_iff _ _).1 (agree.1 isId)).2
    exact Nat.not_le.2 inside outside
  · exact executeLoad_of_lt isId inside (Store.inOrder_ofList "game" list)
      (Store.data?_ofList "game" list _) rfl given

end Library

end Cinematic
