import Cinematic.Proofs.Machine.Comparison
import Cinematic.Proofs.Store.Loading
import Cinematic.Session.Summary

/-!
# The machine and the store agree

A session has two parts that each know which part of the game is being played: the machine, which
has its segment, and the store, which has its resources. They learn it at different moments, and
anything may fail in between. **They agree after every frame all the same**, on the part that was
entered last, and this also after frames that have failed (`Cinematic.Session.Frames.consistent`).

While no frame has failed, more is true. All resources of the part are in memory, the segment of
the machine is what is in memory as the part's bytecode, and no part is waited for. The parts that
were entered are the first one and, for every frame whose pass has asked for parts, the last of
these.

A failed frame may leave less. A part that could not be loaded has already taken the resources of
the current one out of memory, and a pass that has failed may have left a request behind.

What a pass asks for is read off the minutes that its host takes. The store remembers only the last
request, and that it is the last one in the minutes is the invariant that a pass keeps
(`Cinematic.Stage.alike_minuted`).
-/

namespace Cinematic

open Store (Follows)

/-- The part that a message asks for, if it asks for one that there is. -/
def Message.part? (list : MemoryList) : Message → Option Part
  | load id => if list.size ≤ id.toNat then Part.ofId? id else none
  | _ => none

/-- The parts that are asked for in minutes, in order. -/
def partsAsked (list : MemoryList) (minutes : List Message) : List Part :=
  minutes.filterMap (Message.part? list)

/-- There is every part that is asked for. -/
theorem ofId?_of_mem_partsAsked {list : MemoryList} {minutes : List Message} {part : Part}
    (member : part ∈ partsAsked list minutes) : Part.ofId? part.id = some part := by
  obtain ⟨message, -, asked⟩ := List.mem_filterMap.1 member
  cases message with
  | load id =>
    rw [Message.part?] at asked
    split at asked
    · rw [Part.id_of_ofId? asked]
      exact asked
    · cases asked
  | _ => cases asked

/-- The id of the part that is asked for last. -/
def wanted? (list : MemoryList) (minutes : List Message) : Option UInt16 :=
  (partsAsked list minutes).getLast?.map Part.id

theorem wanted?_concat (list : MemoryList) (minutes : List Message) (message : Message) :
    wanted? list (minutes ++ [message])
      = ((message.part? list).map Part.id).or (wanted? list minutes) := by
  unfold wanted? partsAsked
  rw [List.filterMap_append, List.getLast?_append, Option.map_or]
  cases asked : message.part? list with
  | none => rw [List.filterMap_cons_none asked]; rfl
  | some part => rw [List.filterMap_cons_some asked]; rfl

/-! ### Passes -/

namespace Stage

theorem store_call (s : Stage) (c : HostCall) : (s.call c).library.store = s.library.store := rfl

theorem store_observe (s : Stage) (e : TraceEvent) :
    (s.observe e).library.store = s.library.store := rfl

theorem store_note (s : Stage) (e : Log.Entry) : (s.note e).library.store = s.library.store := rfl

/-- **How the stage answers a request.** It leaves of the store what a request leaves, and a request
for a part succeeds if there is such a part, and only then. -/
theorem load_answer (s : Stage) (id : UInt16) :
    let asked := (Message.load id).part? s.library.store.list
    Follows (asked.map Part.id) s.library.store (s.load id).2.library.store ∧
      (s.library.store.list.size ≤ id.toNat → ((s.load id).1 = .ok () ↔ asked.isSome)) := by
  intro asked
  have ends := Library.request_ends id s.library
  rw [load]
  cases answer : Library.request id s.library with
  | ok _ library =>
    obtain ⟨follows, part⟩ := ends.of_ok answer
    exact ⟨follows, fun other => ⟨fun _ => part other, fun _ => rfl⟩⟩
  | error e library =>
    obtain ⟨follows, unasked⟩ := ends.of_error answer
    have unasked : asked = none := unasked
    refine ⟨follows, fun _ => ?_⟩
    rw [unasked]
    constructor
    · intro ok
      cases ok
    · intro part
      cases part

/-- **The minutes tell what has become of the store** since the stage was `first`. -/
def Minuted (first s : Stage) (s' : Stage × List Message) : Prop :=
  s = s'.1 ∧ Follows (wanted? first.library.store.list s'.2) first.library.store s.library.store

theorem Minuted.say {first s t : Stage} {minutes : List Message}
    (minuted : Minuted first s (s, minutes)) (same : t.library.store = s.library.store)
    (message : Message) (silent : message.part? first.library.store.list = none) :
    Minuted first t (t, minutes ++ [message]) := by
  refine ⟨rfl, ?_⟩
  rw [wanted?_concat, silent, same]
  exact minuted.2

theorem alike_minuted (first : Stage) : host.Alike host.transcribed (Minuted first) Eq where
  resource? related id := by rw [related.1]; rfl
  load := by
    rintro s ⟨_, minutes⟩ ⟨rfl, follows⟩ id
    refine ⟨rfl, rfl, ?_⟩
    have asked := (s.load_answer id).1
    rw [follows.list] at asked
    change Follows (wanted? _ (minutes ++ [.load id])) _ _
    rw [wanted?_concat]
    exact follows.trans asked
  call := by
    rintro s ⟨_, minutes⟩ ⟨rfl, follows⟩ c
    exact Minuted.say ⟨rfl, follows⟩ (s.store_call c) (.call c) rfl
  note := by
    rintro s ⟨_, minutes⟩ ⟨rfl, follows⟩ e
    exact Minuted.say ⟨rfl, follows⟩ (s.store_note e) (.note e) rfl
  observe := by
    rintro s ⟨_, minutes⟩ ⟨rfl, follows⟩ e _
    exact Minuted.say ⟨rfl, follows⟩ (s.store_observe e) (.step e) rfl
  pass := by
    rintro s ⟨_, minutes⟩ ⟨rfl, follows⟩ n _ rfl
    exact Minuted.say ⟨rfl, follows⟩ (s.store_observe _) (.step (.pass n)) rfl

end Stage

namespace Session

/-- The store of a session. -/
abbrev store (s : Session) : Store := s.stage.library.store

/-- **The parts that the pass of the next frame asks for**, in the order of time. -/
def partsAsked (s : Session) : List Part :=
  let ran := Machine.run Stage.host.transcribed s.machine .neutral
    (s.stage.waitUntil s.machine.nextDeadline, [])
  Cinematic.partsAsked s.store.list ran.host.2

/-- **What a pass leaves of a session.** -/
structure Passed (s s' : Session) : Prop where
  parts : s'.parts = s.parts
  part : s'.machine.part = s.machine.part
  segment : s'.machine.segment = s.machine.segment
  store : Follows (s.partsAsked.getLast?.map Part.id) s.store s'.store

theorem pass_ends (s : Session) :
    Ends pass s (fun _ s' => Passed s s') fun _ s' => Passed s s' := by
  obtain ⟨machine, stage, passes, parts⟩ := s
  have begun : Stage.Minuted stage (stage.waitUntil machine.nextDeadline)
      (stage.waitUntil machine.nextDeadline, []) := ⟨rfl, Follows.refl _⟩
  obtain ⟨-, -, -, follows⟩ := Machine.run_related (Stage.alike_minuted stage)
    (fun related => by rw [related.1]; rfl) machine .neutral begun
  obtain ⟨part, segment⟩ := Machine.run_kept Stage.host machine .neutral
    (stage.waitUntil machine.nextDeadline)
  have passed (passes' : Nat) :
      let ran := Machine.run Stage.host machine .neutral (stage.waitUntil machine.nextDeadline)
      Passed ⟨machine, stage, passes, parts⟩ ⟨ran.machine, ran.host, passes', parts⟩ :=
    ⟨rfl, part, segment, follows⟩
  rw [Ends, pass]
  generalize Machine.run Stage.host machine .neutral (stage.waitUntil machine.nextDeadline)
    = ran at passed ⊢
  obtain ⟨machine', controls, stage', result⟩ := ran
  cases result with
  | ok ran => exact passed _
  | error e => exact passed _

/-! ### Entering a part -/

/-- What is loaded in a session is loaded in its library, and nothing else happens. -/
theorem loading_ends {α : Type} {x : Loading α} {s : Session} {P : α → Library → Prop}
    {Q : StoreError → Library → Prop} (ends : Ends x s.stage.library P Q) :
    Ends (loading x) s (fun a s' => ∃ library, P a library ∧ s' = s.withLibrary library)
      fun _ s' => ∃ e library, Q e library ∧ s' = s.withLibrary library := by
  rw [Ends, loading]
  cases result : x s.stage.library with
  | ok a library => exact ⟨library, ends.of_ok result, rfl⟩
  | error e library => exact ⟨e, library, ends.of_error result, rfl⟩

/-- **Machine and store agree on the part**, and it is the one entered last. -/
structure Agrees (s : Session) (p : Part) : Prop where
  known : Part.ofId? p.id = some p
  machine : s.machine.part = some p.id
  store : s.store.currentPart = some p.id
  last : s.parts.toList.getLast? = some p.name

/-- **The part is all there**, and no other one is waited for. -/
structure Settled (s : Session) (p : Part) : Prop where
  inOrder : s.store.InOrder
  unasked : s.store.requestedPart = none
  holds : s.store.Holds p s.machine.segment

/-- What stays as long as no part is entered. -/
structure Stays (s s' : Session) : Prop where
  parts : s'.parts = s.parts
  machine : s'.machine.part = s.machine.part
  store : s'.store.currentPart = s.store.currentPart

theorem Stays.agrees {s s' : Session} {p : Part} (stays : Stays s s') (agrees : Agrees s p) :
    Agrees s' p where
  known := agrees.known
  machine := stays.machine.trans agrees.machine
  store := stays.store.trans agrees.store
  last := by rw [stays.parts, agrees.last]

theorem Stays.trans {s s' s'' : Session} (first : Stays s s') (second : Stays s' s'') :
    Stays s s'' where
  parts := second.parts.trans first.parts
  machine := second.machine.trans first.machine
  store := second.store.trans first.store

theorem Passed.stays {s s' : Session} (passed : Passed s s') : Stays s s' :=
  ⟨passed.parts, passed.part, passed.store.currentPart⟩

/-- **A part that is entered is all there**, and one that cannot be leaves the session with the part
that it was in. -/
theorem enterPart_ends (id : UInt16) (s : Session) :
    Ends (enterPart id) s
      (fun _ s' => ∃ p, Part.ofId? id = some p ∧ Agrees s' p ∧ Settled s' p ∧
        s'.parts.toList = s.parts.toList ++ [p.name])
      fun _ s' => Stays s s' := by
  have loads := (loading_ends (Library.loadPart_ends id s.stage.library)).mono
    (fun _ _ here => here) fun _ s' failed => show Stays s s' by
      obtain ⟨_, library, same, rfl⟩ := failed
      exact ⟨rfl, rfl, same⟩
  refine loads.bind ?_
  rintro loaded _ ⟨library, ⟨found, -, inOrder, current, unasked, holds⟩, rfl⟩
  have same := Part.id_of_ofId? found
  refine ⟨loaded.part, found, ⟨?_, ?_, ?_, ?_⟩, ⟨inOrder, unasked, holds⟩, ?_⟩
  · rw [same]
    exact found
  · rfl
  · rw [same]
    exact current
  · change (s.parts.push loaded.part.name).toList.getLast? = _
    rw [Array.toList_push, List.getLast?_concat]
  · exact Array.toList_push

/-- The session with no part waited for. -/
def withoutRequest (s : Session) : Session :=
  s.withLibrary { s.stage.library with store := { s.store with requestedPart := none } }

theorem takeRequest_ends (s : Session) :
    Ends (loading Library.takeRequest) s
      (fun requested s' => requested = s.store.requestedPart ∧ s' = s.withoutRequest)
      fun _ s' => Stays s s' := ⟨rfl, rfl⟩

/-- **The part that was asked for is entered**, if there is one. -/
theorem switchPart_ends (s : Session) :
    Ends switchPart s
      (fun _ s' => (s.store.requestedPart = none ∧ s' = s.withoutRequest) ∨
        ∃ id p, s.store.requestedPart = some id ∧ Part.ofId? id = some p ∧ Agrees s' p ∧
          Settled s' p ∧ s'.parts.toList = s.parts.toList ++ [p.name])
      fun _ s' => Stays s s' := by
  refine (takeRequest_ends s).bind ?_
  rintro requested _ ⟨taken, rfl⟩
  cases requested with
  | none => exact Or.inl ⟨taken.symm, rfl⟩
  | some id =>
    -- telling the log changes nothing that matters here
    have told : Ends (loading (Library.note (Log.switchingPart id s.passes))) s.withoutRequest
        (fun _ s' => Stays s s') fun _ s' => Stays s s' := ⟨rfl, rfl, rfl⟩
    change Ends (loading (Library.note (Log.switchingPart id s.passes)) >>= fun _ => enterPart id)
      s.withoutRequest _ _
    refine told.bind fun _ s₁ stays => ?_
    refine (enterPart_ends id s₁).mono ?_ fun _ s' stays' => stays.trans stays'
    rintro _ s' ⟨p, found, agrees, settled, pushed⟩
    rw [stays.parts] at pushed
    exact Or.inr ⟨id, p, taken.symm, found, agrees, settled, pushed⟩

/-! ### Frames -/

/-- **What a frame leaves of a session.** -/
theorem frame_ends {s : Session} {p : Part} (agrees : Agrees s p) :
    Ends frame s
      (fun _ s' => ∃ p', Agrees s' p' ∧ (Settled s p → Settled s' p' ∧
        s'.parts.toList = s.parts.toList ++ (s.partsAsked.getLast?.map Part.name).toList))
      fun _ s' => Agrees s' p := by
  have passes := (pass_ends s).mono (fun _ _ here => here) fun _ s' passed =>
    show Agrees s' p from passed.stays.agrees agrees
  refine passes.bind fun _ s₁ passed => ?_
  refine (switchPart_ends s₁).mono ?_ fun _ s' stays => (passed.stays.trans stays).agrees agrees
  -- the request that is pending is that of this pass, if no older one was
  have pending (settled : Settled s p) :
      s₁.store.requestedPart = s.partsAsked.getLast?.map Part.id := by
    rw [passed.store.requestedPart, settled.unasked, Option.or_none]
  rintro _ s' (⟨none, rfl⟩ | ⟨id, p', asked, found, agrees', settled', pushed⟩)
  · have stays : Stays s₁ s₁.withoutRequest := ⟨rfl, rfl, rfl⟩
    refine ⟨p, (passed.stays.trans stays).agrees agrees, fun settled => ⟨?_, ?_⟩⟩
    · have holds := passed.store.holds settled.holds
      rw [← passed.segment] at holds
      exact ⟨(passed.store.inOrder settled.inOrder).of_same_tables rfl rfl rfl, rfl, holds.loaded,
        holds.bytecode⟩
    · rw [pending settled, Option.map_eq_none_iff] at none
      rw [none]
      change s₁.parts.toList = _
      rw [passed.parts]
      exact (List.append_nil _).symm
  · refine ⟨p', agrees', fun settled => ⟨settled', ?_⟩⟩
    rw [pending settled, Option.map_eq_some_iff] at asked
    obtain ⟨last, latest, rfl⟩ := asked
    have same : p' = last := by
      have known := ofId?_of_mem_partsAsked (List.mem_of_getLast? latest)
      exact Option.some.inj (found.symm.trans known)
    rw [pushed, passed.parts, latest, same]
    rfl

/-- **Frames one after the other**, of which any may fail, and each may have its steps written down
in its own way. With each frame goes whether it has succeeded, and the parts that its pass has asked
for. -/
inductive Frames (first : Session) : List (Bool × List Part) → Session → Prop
  | nil : Frames first [] first
  | succeeds {played : List (Bool × List Part)} {s s' : Session} (before : Frames first played s)
    (tracing : Tracing) (done : frame (s.withTracing tracing) = .ok () s') :
    Frames first (played ++ [(true, (s.withTracing tracing).partsAsked)]) s'
  | fails {played : List (Bool × List Part)} {s s' : Session} {e : SessionError}
    (before : Frames first played s) (tracing : Tracing)
    (failed : frame (s.withTracing tracing) = .error e s') :
    Frames first (played ++ [(false, (s.withTracing tracing).partsAsked)]) s'

/-- The names of the parts that are entered in frames that all succeed. -/
def entered (played : List (Bool × List Part)) : List String :=
  played.filterMap fun frame => frame.2.getLast?.map Part.name

theorem entered_concat (played : List (Bool × List Part)) (frame : Bool × List Part) :
    entered (played ++ [frame]) = entered played ++ (frame.2.getLast?.map Part.name).toList := by
  rw [entered, List.filterMap_append]
  cases last : frame.2.getLast? with
  | none => rw [List.filterMap_cons_none (by rw [last]; rfl)]; rfl
  | some part => rw [List.filterMap_cons_some (by rw [last]; rfl)]; rfl

/-- **What frames keep of a session.** -/
theorem Frames.agrees {first s : Session} {played : List (Bool × List Part)} {p : Part}
    (frames : Frames first played s) (agrees : Agrees first p) (settled : Settled first p) :
    ∃ p', Agrees s p' ∧ ((∀ frame ∈ played, frame.1 = true) →
      Settled s p' ∧ s.parts.toList = first.parts.toList ++ entered played) := by
  induction frames with
  | nil => exact ⟨p, agrees, fun _ => ⟨settled, (List.append_nil _).symm⟩⟩
  | @succeeds played s s' before tracing done ih =>
    obtain ⟨p₁, agrees₁, while₁⟩ := ih
    have traced : Agrees (s.withTracing tracing) p₁ :=
      ⟨agrees₁.known, agrees₁.machine, agrees₁.store, agrees₁.last⟩
    obtain ⟨p', agrees', while'⟩ := (frame_ends traced).of_ok done
    refine ⟨p', agrees', fun succeed => ?_⟩
    obtain ⟨settled₁, parts₁⟩ := while₁ fun frame member =>
      succeed frame (List.mem_append_left _ member)
    obtain ⟨settled', parts'⟩ := while' ⟨settled₁.inOrder, settled₁.unasked, settled₁.holds⟩
    refine ⟨settled', parts'.trans ?_⟩
    rw [entered_concat, ← List.append_assoc, ← parts₁]
    rfl
  | @fails played s s' e before tracing failed ih =>
    obtain ⟨p₁, agrees₁, -⟩ := ih
    have traced : Agrees (s.withTracing tracing) p₁ :=
      ⟨agrees₁.known, agrees₁.machine, agrees₁.store, agrees₁.last⟩
    refine ⟨p₁, (frame_ends traced).of_error failed, fun succeed => ?_⟩
    cases succeed _ (List.mem_append_right _ List.mem_cons_self)

/-- **The machine and the store agree.** In a session that has been started, after any frames, of
which any may have failed, machine and store are in the same part, and it is the one whose name was
written down last. As long as all frames have succeeded, no part is waited for, all resources of the
part are loaded, the segment of the machine is what has been loaded as the part's bytecode, and the
parts are the first one and, of every frame whose pass has successfully asked for parts, the last of
these. To ask for a part is to ask for an id beyond the memory list, and it succeeds if there is a
part with this id, and only then. -/
theorem Frames.consistent {library : Library} {config : MachineConfig} {seed part : UInt16}
    {first s : Session} (started : start library config seed part = .ok () first)
    {played : List (Bool × List Part)} (frames : Frames first played s) :
    ∃ p p₀ : Part, Part.ofId? part = some p₀ ∧ Part.ofId? p.id = some p ∧
      s.machine.part = some p.id ∧ s.store.currentPart = some p.id ∧
      s.summary.parts.getLast? = some p.name ∧
      (∀ id, s.store.list.size ≤ id.toNat →
        ((s.stage.load id).1 = .ok () ↔ ((Message.load id).part? s.store.list).isSome)) ∧
      ((∀ frame ∈ played, frame.1 = true) →
        s.store.requestedPart = none ∧
        (∀ r ∈ p.resources, s.store.state? r.toUInt16 = some .loaded) ∧
        s.store.data? p.bytecode.toUInt16 = some s.machine.segment ∧
        s.summary.parts
          = p₀.name :: played.filterMap fun frame => frame.2.getLast?.map Part.name) := by
  obtain ⟨p₀, found, agrees, settled, parts⟩ := (enterPart_ends part _).of_ok started
  obtain ⟨p, agrees', succeed⟩ := frames.agrees agrees settled
  refine ⟨p, p₀, found, agrees'.known, agrees'.machine, agrees'.store, agrees'.last,
    fun id => (s.stage.load_answer id).2, fun all => ?_⟩
  obtain ⟨settled', parts'⟩ := succeed all
  refine ⟨settled'.unasked, settled'.holds.loaded, settled'.holds.bytecode, parts'.trans ?_⟩
  rw [parts]
  rfl

/-- In the introduction the bytecode asks for itself and then for the code-wheel screen, and there it
asks for a part whose resources are missing. So the first frame enters the screen, and the second
one fails. -/
theorem Frames.consistent_missing_part :
    let bank : Bytes := #[0x19, 0x3e, 0x82, 0x06, 0, 0, 0, 0x19, 0x3e, 0x81, 0x19, 0x3e, 0x80, 0x06]
    let entry (id : Nat) : MemoryEntry :=
      ⟨id.toUInt16, .notNeeded, .bytecode, 0, 1, if id < 0x17 then 0 else 7, 7, 7⟩
    let library : Library := .ofStore (.ofList "game" ⟨(Array.range 0x1a).map entry⟩)
      ⟨[(["game"], .directory), (["BANK01", "game"], .file bank)]⟩
    ∃ first s s' e, start library .standard 0 0x3e81 = .ok () first ∧
      frame (first.withTracing .off) = .ok () s ∧ frame (s.withTracing .log) = .error e s' ∧
      s.summary.parts = ["introduction", "protection"] ∧ s.store.requestedPart = none ∧
      (∃ p : Part, s.machine.part = some p.id ∧
        s.store.data? p.bytecode.toUInt16 = some s.machine.segment) ∧
      s'.machine.part = s'.store.currentPart := by
  intro bank entry library
  have runs : Ends (enterPart 0x3e81) (fresh library .standard 0)
      (fun _ first => Ends frame (first.withTracing .off)
        (fun _ s => Ends frame (s.withTracing .log) (fun _ _ => False)
          fun _ _ => s.summary.parts = ["introduction", "protection"])
        fun _ _ => False)
      fun _ _ => False := by
    decide +kernel
  obtain ⟨_, first, started, runs⟩ := runs.exists_ok
  obtain ⟨_, s, done, runs⟩ := runs.exists_ok
  obtain ⟨e, s', failed, parts⟩ := runs.exists_error
  have one := Frames.nil.succeeds .off done
  obtain ⟨p, _, -, -, machine, -, -, -, succeed⟩ := Frames.consistent started one
  obtain ⟨unasked, -, segment, -⟩ := succeed (by simp)
  obtain ⟨_, _, -, -, machine', store', -⟩ := Frames.consistent started (one.fails .log failed)
  exact ⟨first, s, s', e, started, done, failed, parts, unasked, ⟨p, machine, segment⟩,
    machine'.trans store'.symm⟩

end Session

end Cinematic
