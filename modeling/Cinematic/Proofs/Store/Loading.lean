import Cinematic.Store.Library
import Cinematic.Proofs.Computation

/-!
# What loading leaves of the store

A store has two tables, and what bytecode is told from the one has to be true of the other. **The
tables agree** (`Cinematic.Store.InOrder`): a resource is loaded if its data are in memory, and
otherwise it is not needed. They do in the beginning, and whatever writes to one of them writes to
the other (`Cinematic.Store.InOrder.hold`, `Cinematic.Store.inOrder_clear`).

Loading a resource **only adds to what is in memory** (`Cinematic.Store.Follows`): the memory list
and the current part stay, whatever was in memory stays as it was, the tables still agree if they
did, and then what has been loaded is there (`Cinematic.Library.load_ends`). All that is done on the
way – reading banks, dumping, telling the log – leaves the store alone (`Cinematic.Library.Spares`).

Loading a part is different, because it forgets everything first. It becomes the current part only
when all of its resources are in memory; if one of them fails, the current part remains what it was
(`Cinematic.Library.loadPart_ends`).

Computations on a library keep what they have done also when they fail, so a specification has two
sides (`Cinematic.Ends`), and a sequence fails with what its first computation has left or with what
its second one has left.
-/

namespace Cinematic

/-- The part with an id has this id. -/
theorem Part.id_of_ofId? {id : UInt16} {part : Part} (found : Part.ofId? id = some part) :
    part.id = id := by
  unfold ofId? at found
  have same := List.find?_some found
  exact beq_iff_eq.1 same

/-! ### The two tables -/

namespace Store

variable {s s' s'' : Store}

/-- **The store is in order.** In both tables there is a slot for every resource of the list and for no
others, and a resource is loaded if its data are in memory, and otherwise it is not needed. -/
structure InOrder (s : Store) : Prop where
  states : s.states.size = s.list.size
  data : s.data.size = s.list.size
  agree (id : UInt16) : id.toNat < s.list.size →
    s.state? id = some (if (s.data? id).isSome then .loaded else .notNeeded)

/-- There is nothing to be told about other ids. -/
theorem InOrder.none_of_le (inOrder : s.InOrder) {id : UInt16} (outside : s.list.size ≤ id.toNat) :
    s.state? id = none ∧ s.data? id = none := by
  constructor
  · exact Array.getElem?_eq_none (inOrder.states ▸ outside)
  · rw [data?, Array.getD_eq_getD_getElem?, Array.getElem?_eq_none (inOrder.data ▸ outside)]
    rfl

/-- **Loaded means that the data are there.** -/
theorem InOrder.state?_eq_loaded_iff (inOrder : s.InOrder) (id : UInt16) :
    s.state? id = some .loaded ↔ (s.data? id).isSome := by
  rcases Nat.lt_or_ge id.toNat s.list.size with inside | outside
  · rw [inOrder.agree id inside]
    cases s.data? id <;> simp
  · obtain ⟨state, data⟩ := inOrder.none_of_le outside
    simp [state, data]

theorem inOrder_ofList (dir : String) (list : MemoryList) : (ofList dir list).InOrder where
  states := Array.size_replicate
  data := Array.size_replicate
  agree id inside := by
    rw [state?_ofList, data?_ofList]
    exact if_pos inside

theorem inOrder_clear (s : Store) : s.clear.InOrder where
  states := Array.size_replicate
  data := Array.size_replicate
  agree id inside := by
    rw [state?_clear, data?_clear]
    exact if_pos inside

theorem InOrder.of_same_tables (inOrder : s.InOrder) (list : s'.list = s.list)
    (states : s'.states = s.states) (data : s'.data = s.data) : s'.InOrder where
  states := by rw [states, list, inOrder.states]
  data := by rw [data, list, inOrder.data]
  agree id inside := by
    rw [state?, data?, states, data]
    exact inOrder.agree id (list ▸ inside)

/-- **A resource that is put into memory is entered in both tables.** -/
theorem InOrder.hold (inOrder : s.InOrder) (id : UInt16) (bytes : Bytes) :
    (s.hold id bytes).InOrder where
  states := Array.size_setIfInBounds.trans inOrder.states
  data := Array.size_setIfInBounds.trans inOrder.data
  agree other inside := by
    by_cases apart : other = id
    · subst apart
      rw [state?_hold_self (inOrder.states ▸ inside), data?_hold_self (inOrder.data ▸ inside)]
      rfl
    · rw [state?_hold_of_ne apart, data?_hold_of_ne apart]
      exact inOrder.agree other inside

/-! ### Growing stores -/

/-- **The store has only grown**, and a part has been asked for if one was wanted. -/
structure Follows (wanted : Option UInt16) (s s' : Store) : Prop where
  list : s'.list = s.list
  currentPart : s'.currentPart = s.currentPart
  requestedPart : s'.requestedPart = wanted.or s.requestedPart
  inOrder : s.InOrder → s'.InOrder
  /-- What was loaded is loaded. -/
  loaded (id : UInt16) : s.state? id = some .loaded → s'.state? id = some .loaded
  /-- What was in memory is in memory as it was. -/
  data (id : UInt16) (bytes : Bytes) : s.data? id = some bytes → s'.data? id = some bytes

theorem Follows.refl (s : Store) : Follows none s s :=
  ⟨rfl, rfl, rfl, id, fun _ => id, fun _ _ => id⟩

theorem Follows.trans {wanted wanted' : Option UInt16} (first : Follows wanted s s')
    (second : Follows wanted' s' s'') : Follows (wanted'.or wanted) s s'' where
  list := second.list.trans first.list
  currentPart := second.currentPart.trans first.currentPart
  requestedPart := by rw [second.requestedPart, first.requestedPart, Option.or_assoc]
  inOrder start := second.inOrder (first.inOrder start)
  loaded id here := second.loaded id (first.loaded id here)
  data id bytes here := second.data id bytes (first.data id bytes here)

/-- Data that are put where there were none leave all others in place. -/
theorem follows_hold {id : UInt16} (missing : s.data? id = none) (bytes : Bytes) :
    Follows none s (s.hold id bytes) where
  list := rfl
  currentPart := rfl
  requestedPart := rfl
  inOrder start := start.hold id bytes
  loaded other here := by
    by_cases apart : other = id
    · subst apart
      exact state?_hold_self (Array.getElem?_eq_some_iff.1 here).1 bytes
    · rw [state?_hold_of_ne apart]
      exact here
  data other known here := by
    have apart : other ≠ id := by
      rintro rfl
      cases missing.symm.trans here
    rw [data?_hold_of_ne apart]
    exact here

/-- **The resources of a part are in memory**, and one of them are the bytes of its segment. -/
structure Holds (s : Store) (part : Part) (segment : Bytes) : Prop where
  loaded : ∀ r ∈ part.resources, s.state? r.toUInt16 = some .loaded
  bytecode : s.data? part.bytecode.toUInt16 = some segment

theorem Follows.holds {wanted : Option UInt16} {part : Part} {segment : Bytes}
    (follows : Follows wanted s s') (holds : s.Holds part segment) : s'.Holds part segment where
  loaded r member := follows.loaded _ (holds.loaded r member)
  bytecode := follows.data _ _ holds.bytecode

/-- A part without characters has three resources. -/
theorem holds_of_loaded {part : Part} {segment : Bytes}
    (palettes : s.state? part.palettes.toUInt16 = some .loaded)
    (bytecode : s.state? part.bytecode.toUInt16 = some .loaded ∧
      s.data? part.bytecode.toUInt16 = some segment)
    (cinematic : s.state? part.cinematic.toUInt16 = some .loaded)
    (characters : part.characters ≠ 0 → s.state? part.characters.toUInt16 = some .loaded) :
    s.Holds part segment := by
  refine ⟨fun r member => ?_, bytecode.2⟩
  obtain ⟨member, some⟩ := List.mem_filter.1 member
  simp only [List.mem_cons, List.not_mem_nil, or_false] at member
  rcases member with rfl | rfl | rfl | rfl
  · exact palettes
  · exact bytecode.1
  · exact cinematic
  · exact characters (of_decide_eq_true some)

theorem lt_size_of_entry {id : UInt16} {e : MemoryEntry} (known : s.entry id = .ok e) :
    id.toNat < s.list.size := by
  unfold entry at known
  split at known
  · next here => exact (Array.getElem?_eq_some_iff.1 here).1
  · cases known

end Store

namespace Library

open Store (Follows)

/-! ### What leaves the store alone -/

variable {α β : Type}

/-- **The computation leaves the store alone**, however it ends. -/
def Spares (x : Loading α) : Prop :=
  ∀ l, Ends x l (fun _ l' => l'.store = l.store) fun _ l' => l'.store = l.store

theorem Spares.pure (a : α) : Spares (Pure.pure a : Loading α) := fun _ => rfl

theorem Spares.throw (e : StoreError) : Spares (throw e : Loading α) := fun _ => rfl

theorem Spares.get : Spares (get : Loading Library) := fun _ => rfl

theorem Spares.bind {x : Loading α} {f : α → Loading β} (first : Spares x)
    (second : ∀ a, Spares (f a)) : Spares (x >>= f) := by
  intro l
  have ends : Ends x l (fun _ l' => l'.store = l.store) fun _ l' => l'.store = l.store := first l
  refine ends.bind fun a l₁ same => ?_
  exact (second a l₁).mono (fun _ _ => (·.trans same)) fun _ _ => (·.trans same)

theorem spares_note (e : Log.Entry) : Spares (note e) := fun _ => rfl

theorem spares_answer (result : Except StoreError α) : Spares (answer result) := by
  cases result with
  | ok a => exact .pure a
  | error e => exact .throw e

theorem spares_entry (id : UInt16) : Spares (entry id) := .bind .get fun _ => spares_answer _

theorem spares_read (id : UInt16) : Spares (read id) := by
  refine .bind .get fun l => .bind (spares_answer _) fun data => .bind (spares_entry id) fun e => ?_
  split
  · exact .bind (spares_note _) fun _ => .pure data
  · exact .bind (.pure _) fun _ => .pure data

theorem spares_write (path : String) (content : Bytes) : Spares (write path content) := by
  refine .bind .get fun l => ?_
  split
  · exact fun _ => rfl
  · exact .throw _

theorem spares_dump (e : MemoryEntry) (data : Bytes) : Spares (dump e data) := by
  refine .bind .get fun l => ?_
  split
  · exact spares_write _ _
  · exact .pure _

/-! ### Resources -/

/-- A resource that was not in memory is put there. -/
theorem loadFresh_ends (id : UInt16) (l : Library) :
    Ends (loadFresh id) l
      (fun data l' => l'.store = l.store.hold id data ∧ id.toNat < l.store.list.size)
      fun _ l' => l'.store = l.store := by
  have known : Ends (entry id) l (fun _ l' => l' = l ∧ id.toNat < l.store.list.size)
      fun _ l' => l'.store = l.store := by
    change Ends (answer (l.store.entry id)) l _ _
    cases found : l.store.entry id with
    | error e => exact rfl
    | ok e => exact ⟨rfl, Store.lt_size_of_entry found⟩
  refine known.bind ?_
  rintro e l₁ ⟨rfl, inside⟩
  -- up to the last step the store is the same
  have told := (spares_note (Log.loadingResource id e.kind e.bank)) l₁
  refine told.bind fun _ l₂ same₂ => ?_
  refine ((spares_read id l₂).mono (fun _ _ => (·.trans same₂)) fun _ _ => (·.trans same₂)).bind
    fun data l₃ same₃ => ?_
  refine ((spares_dump e data l₃).mono (fun _ _ => (·.trans same₃)) fun _ _ =>
    (·.trans same₃)).bind fun _ l₄ same₄ => ?_
  exact ⟨congrArg (·.hold id data) same₄, inside⟩

/-- **A resource that has been loaded is in memory**, and nothing else has changed. -/
theorem load_ends (id : UInt16) (l : Library) :
    Ends (load id) l
      (fun data l' => Follows none l.store l'.store ∧ (l.store.InOrder →
        l'.store.state? id = some .loaded ∧ l'.store.data? id = some data))
      fun _ l' => Follows none l.store l'.store := by
  have here : Ends (get : Loading Library) l (fun l' l'' => l' = l ∧ l'' = l)
    fun _ l' => Follows none l.store l'.store := ⟨rfl, rfl⟩
  refine here.bind fun l₁ l₂ same => ?_
  rw [same.1, same.2]
  cases found : l.store.data? id with
  | some data =>
    refine ⟨.refl _, fun inOrder => ⟨?_, found⟩⟩
    exact (inOrder.state?_eq_loaded_iff id).2 (Option.isSome_of_eq_some found)
  | none =>
    refine (loadFresh_ends id l).mono ?_ fun _ l' same => same ▸ .refl _
    rintro data l' ⟨held, inside⟩
    rw [held]
    refine ⟨Store.follows_hold found data, fun inOrder => ⟨?_, ?_⟩⟩
    · exact Store.state?_hold_self (inOrder.states ▸ inside) data
    · exact Store.data?_hold_self (inOrder.data ▸ inside) data

/-! ### Parts -/

/-- A resource that is loaded after memory has been cleared. -/
theorem load_ends_of_follows {l₀ l : Library} (before : Follows none l₀.store.clear l.store)
    (id : UInt16) :
    Ends (load id) l
      (fun data l' => Follows none l₀.store.clear l'.store ∧ Follows none l.store l'.store ∧
        l'.store.state? id = some .loaded ∧ l'.store.data? id = some data)
      fun _ l' => Follows none l₀.store.clear l'.store := by
  refine (load_ends id l).mono ?_ fun _ _ follows => before.trans follows
  rintro data l' ⟨follows, held⟩
  exact ⟨before.trans follows, follows, held (before.inOrder (Store.inOrder_clear _))⟩

/-- **The resources of a part are loaded into an empty memory.** -/
theorem loadResources_ends (part : Part) (l : Library) :
    Ends (loadResources part) l
      (fun loaded l' => Follows none l.store.clear l'.store ∧ loaded.part = part ∧
        l'.store.Holds part loaded.bytecode)
      fun _ l' => Follows none l.store.clear l'.store := by
  have cleared : Ends clear l (fun _ l' => l'.store = l.store.clear)
    fun _ l' => Follows none l.store.clear l'.store := rfl
  refine cleared.bind fun _ l₁ empty => ?_
  refine (load_ends_of_follows (empty ▸ .refl _) part.palettes.toUInt16).bind ?_
  rintro palettes l₂ ⟨before₂, -, held₂⟩
  refine (load_ends_of_follows before₂ part.bytecode.toUInt16).bind ?_
  rintro bytecode l₃ ⟨before₃, step₃, held₃⟩
  refine (load_ends_of_follows before₃ part.cinematic.toUInt16).bind ?_
  rintro cinematic l₄ ⟨before₄, step₄, held₄⟩
  -- what has been loaded so far stays, whatever comes last
  have holds {l₅ : Library} (step₅ : Follows none l₄.store l₅.store)
      (held₅ : part.characters ≠ 0 →
        l₅.store.state? part.characters.toUInt16 = some .loaded) :
      l₅.store.Holds part bytecode := by
    have later := step₄.trans step₅
    exact Store.holds_of_loaded (later.loaded _ (step₃.loaded _ held₂.1))
      ⟨later.loaded _ held₃.1, later.data _ _ held₃.2⟩ (step₅.loaded _ held₄.1) held₅
  dsimp only
  split
  · next none => exact ⟨before₄, rfl, holds (.refl _) fun some => absurd none some⟩
  · have loads : Ends (some <$> load part.characters.toUInt16) l₄
        (fun _ l' => Follows none l.store.clear l'.store ∧ l'.store.Holds part bytecode)
        fun _ l' => Follows none l.store.clear l'.store := by
      refine Ends.map ((load_ends_of_follows before₄ part.characters.toUInt16).mono ?_
        fun _ _ here => here)
      rintro data l₅ ⟨before₅, step₅, held₅⟩
      exact ⟨before₅, holds step₅ fun _ => held₅.1⟩
    refine loads.bind ?_
    rintro characters l₅ ⟨before₅, holds₅⟩
    exact ⟨before₅, rfl, holds₅⟩

/-- **A part becomes the current one when all of its resources are in memory**, and not before. -/
theorem loadPart_ends (id : UInt16) (l : Library) :
    Ends (loadPart id) l
      (fun loaded l' => Part.ofId? id = some loaded.part ∧ l'.store.list = l.store.list ∧
        l'.store.InOrder ∧ l'.store.currentPart = some id ∧ l'.store.requestedPart = none ∧
        l'.store.Holds loaded.part loaded.bytecode)
      fun _ l' => l'.store.currentPart = l.store.currentPart := by
  unfold loadPart
  cases found : Part.ofId? id with
  | none => exact rfl
  | some part =>
    have told : Ends (note (Log.loadingPart part)) l (fun _ l' => l'.store = l.store)
      fun _ l' => l'.store.currentPart = l.store.currentPart := rfl
    refine told.bind fun _ l₁ same => ?_
    have loads := (loadResources_ends part l₁).mono (fun _ _ here => here) fun _ l' follows =>
      show l'.store.currentPart = l.store.currentPart by
        rw [follows.currentPart, ← same]
        rfl
    refine loads.bind ?_
    rintro loaded l₂ ⟨follows, rfl, holds⟩
    have inOrder := follows.inOrder (Store.inOrder_clear _)
    refine ⟨rfl, ?_, inOrder.of_same_tables rfl rfl rfl, rfl, rfl, holds.loaded, holds.bytecode⟩
    rw [← same]
    exact follows.list

/-- **What a request leaves of the store**, however it is answered. A part is only noted, which fails
only if there is no such part. -/
theorem request_ends (id : UInt16) (l : Library) :
    let asked := if l.store.list.size ≤ id.toNat then Part.ofId? id else none
    Ends (request id) l
      (fun _ l' => Follows (asked.map Part.id) l.store l'.store ∧
        (l.store.list.size ≤ id.toNat → asked.isSome))
      fun _ l' => Follows (asked.map Part.id) l.store l'.store ∧ asked = none := by
  intro asked
  change Ends (if l.store.list.size ≤ id.toNat then _ else _) l _ _
  by_cases other : l.store.list.size ≤ id.toNat
  · have known : asked = Part.ofId? id := if_pos other
    rw [if_pos other, known]
    cases found : Part.ofId? id with
    | none => exact ⟨.refl _, rfl⟩
    | some part =>
      refine ⟨⟨rfl, rfl, ?_, fun inOrder => inOrder.of_same_tables rfl rfl rfl,
        fun _ here => here, fun _ _ here => here⟩, fun _ => rfl⟩
      exact congrArg some (Part.id_of_ofId? found).symm
  · have unasked : asked = none := if_neg other
    rw [if_neg other, unasked]
    refine Ends.bind ((load_ends id l).mono (fun _ _ loaded => loaded.1) ?_) ?_
    · exact fun _ _ follows => ⟨follows, rfl⟩
    · exact fun _ _ follows => ⟨follows, fun part => absurd part other⟩

end Library

end Cinematic
