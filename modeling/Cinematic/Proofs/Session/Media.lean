import Cinematic.Proofs.Machine.Media
import Cinematic.Proofs.Session.Consistency
import Cinematic.Proofs.Store.Soundness

/-!
# What a session plays and draws

Whatever the bytecode does, **a session plays and draws only what it has in memory**
(`Cinematic.Session.Frames.media_safe`). Three things come together here. The machine asks its host
before a call and makes no other calls (`Cinematic.Machine.run_maintains`). The stage answers from
the table of states, and since the two tables of its store agree (`Cinematic.Store.InOrder`), data are
there for what it offers. And these data are what the banks hold (`Cinematic.Library.Sound`), however
many parts have been loaded or could not be.

The stage changes while a pass is running, so that what is true of a call has to be said of the
stage just before it. A stage that stamps its calls tells the two together
(`Cinematic.Session.stamps`), and it records the same calls as one that does not.
-/

namespace Cinematic

open Library (Sound Steady)

/-! ### Stages -/

namespace Stage

variable {dir : String} {list : MemoryList} {s : Stage} {kind : Resource.Kind} {id : UInt16}

/-- **A resource of a kind is all there**: the memory list has it, it counts as loaded, and its data
are in memory as they come out of the bank. -/
def Ready (s : Stage) (kind : Resource.Kind) (id : UInt16) : Prop :=
  ∃ e data, s.library.store.list.get? id = some e ∧ e.kind = kind ∧
    s.library.store.state? id = some .loaded ∧ s.library.store.data? id = some data ∧
    s.library.store.read s.library.files id = .ok data

/-- The stage offers what its memory list has and what counts as loaded. -/
theorem offers_iff : host.Offers s kind id ↔ ∃ e, s.library.store.list.get? id = some e ∧
    e.kind = kind ∧ s.library.store.state? id = some .loaded := by
  change (∃ d, s.library.store.resource? id = some d ∧ _) ↔ _
  unfold Store.resource?
  constructor
  · rintro ⟨d, known, kind, loaded⟩
    split at known
    · next e state entry here =>
      cases known
      exact ⟨e, entry, kind, here.trans (congrArg some loaded)⟩
    · cases known
  · rintro ⟨e, entry, kind, loaded⟩
    rw [entry, loaded]
    exact ⟨_, rfl, kind, rfl⟩

/-- **What is offered is all there**, if the library is true to its banks. -/
theorem ready_of_offers (sound : Sound dir list s.library) (offered : host.Offers s kind id) :
    s.Ready kind id := by
  obtain ⟨e, entry, kind, loaded⟩ := offers_iff.1 offered
  -- the one table counts it as loaded, so the other has its data
  obtain ⟨data, here⟩ :=
    Option.isSome_iff_exists.1 ((sound.inOrder.state?_eq_loaded_iff id).1 loaded)
  exact ⟨e, data, entry, kind, loaded, here, sound.read id data here⟩

/-- What is true of a stage that stamps its calls, while a pass is running: each call was permitted
when it was made, and all of them have been recorded. -/
structure Stamped (dir : String) (list : MemoryList) (recorded : List HostCall)
    (s : Stage × List (HostCall × Stage)) : Prop where
  sound : Sound dir list s.1.library
  calls : s.1.recorder.calls.toList = recorded ++ s.2.map Prod.fst
  permitted : ∀ stamp ∈ s.2, host.Permits stamp.2 stamp.1 ∧ Sound dir list stamp.2.library

theorem maintains_stamped (dir : String) (list : MemoryList) (recorded : List HostCall) :
    host.stamped.Maintains (Stamped dir list recorded) where
  load := by
    rintro ⟨s, stamps⟩ ⟨sound, calls, permitted⟩ id
    have ends := Library.steady_request id sound
    change Stamped dir list recorded ((s.load id).2, stamps)
    unfold load
    cases answer : Library.request id s.library with
    | ok _ library => exact ⟨ends.of_ok answer, calls, permitted⟩
    | error e library => exact ⟨ends.of_error answer, calls, permitted⟩
  call := by
    rintro ⟨s, stamps⟩ ⟨sound, calls, permitted⟩ c asked
    refine ⟨⟨sound.dir, sound.list, sound.inOrder, sound.read⟩, ?_, ?_⟩
    · change (s.recorder.calls.push c).toList = recorded ++ (stamps ++ [(c, s)]).map Prod.fst
      rw [Array.toList_push, calls, List.map_append, List.append_assoc]
      rfl
    · intro stamp member
      rcases List.mem_append.1 member with before | now
      · exact permitted stamp before
      · rw [List.mem_singleton.1 now]
        exact ⟨Host.permits_stamped.1 asked, sound⟩
  note := by
    rintro ⟨s, stamps⟩ ⟨sound, calls, permitted⟩ e
    exact ⟨⟨sound.dir, sound.list, sound.inOrder, sound.read⟩, calls, permitted⟩
  observe := by
    rintro ⟨s, stamps⟩ ⟨sound, calls, permitted⟩ e
    exact ⟨⟨sound.dir, sound.list, sound.inOrder, sound.read⟩, calls, permitted⟩

end Stage

namespace Session

variable {α β : Type} {dir : String} {list : MemoryList} {s : Session}

/-! ### Passes -/

/-- **The calls that the pass of the next frame makes**, in the order of time, each with the stage
just before it. -/
def stamps (s : Session) : List (HostCall × Stage) :=
  (Machine.run Stage.host.stamped s.machine .neutral
    (s.stage.waitUntil s.machine.nextDeadline, [])).host.2

/-- **What the pass of the next frame does to the stage**, with the stamps of its calls. -/
theorem stamped_run (sound : Sound dir list s.stage.library) :
    let ran := Machine.run Stage.host s.machine .neutral (s.stage.waitUntil s.machine.nextDeadline)
    Stage.Stamped dir list s.stage.recorder.calls.toList (ran.host, s.stamps) := by
  intro ran
  have begun : Stage.Stamped dir list s.stage.recorder.calls.toList
      (s.stage.waitUntil s.machine.nextDeadline, []) :=
    ⟨sound, (List.append_nil _).symm, fun _ member => by cases member⟩
  have stamped := Machine.run_maintains (Stage.maintains_stamped _ _ _) s.machine .neutral begun
  -- the pass itself stamps nothing, which makes no difference
  have alike : (fun (s : Stage) (s' : Stage × List (HostCall × Stage)) => s = s'.1)
      (s.stage.waitUntil s.machine.nextDeadline)
      (s.stage.waitUntil s.machine.nextDeadline, []) := rfl
  obtain ⟨-, -, same⟩ := Machine.run_related Stage.host.alike_stamped
    (fun related => by rw [related]; rfl) s.machine .neutral alike
  have whole : (ran.host, s.stamps) = (Machine.run Stage.host.stamped s.machine .neutral
      (s.stage.waitUntil s.machine.nextDeadline, [])).host := Prod.ext same rfl
  rw [whole]
  exact stamped

theorem stamped_pass (sound : Sound dir list s.stage.library) :
    let stamped (s' : Session) :=
      Stage.Stamped dir list s.stage.recorder.calls.toList (s'.stage, s.stamps)
    Ends pass s (fun _ => stamped) fun _ => stamped := by
  have left := stamped_run sound
  obtain ⟨machine, stage, passes, parts⟩ := s
  intro stamped
  rw [Ends, pass]
  generalize Machine.run Stage.host machine .neutral (stage.waitUntil machine.nextDeadline)
    = ended at left ⊢
  obtain ⟨machine', controls, stage', result⟩ := ended
  cases result with
  | ok ran => exact left
  | error e => exact left

/-! ### Entering a part -/

/-- **The computation records nothing, and keeps the library true to its banks**, however it
ends. -/
def Quiet (x : Playing α) : Prop := ∀ ⦃dir list s⦄, Sound dir list s.stage.library →
  let quiet (s' : Session) :=
    Sound dir list s'.stage.library ∧ s'.stage.recorder = s.stage.recorder
  Ends x s (fun _ => quiet) fun _ => quiet

theorem Quiet.pure (a : α) : Quiet (Pure.pure a : Playing α) := fun _ _ _ sound => ⟨sound, rfl⟩

theorem Quiet.get : Quiet (get : Playing Session) := fun _ _ _ sound => ⟨sound, rfl⟩

theorem Quiet.bind {x : Playing α} {f : α → Playing β} (first : Quiet x)
    (second : ∀ a, Quiet (f a)) : Quiet (x >>= f) := by
  intro dir list s sound
  refine Ends.bind (first sound) ?_
  rintro a s₁ ⟨sound₁, same₁⟩
  refine (second a sound₁).mono ?_ ?_
  · rintro b s₂ ⟨sound₂, same₂⟩
    exact ⟨sound₂, same₂.trans same₁⟩
  · rintro e s₂ ⟨sound₂, same₂⟩
    exact ⟨sound₂, same₂.trans same₁⟩

theorem quiet_loading {x : Loading α} (steady : Steady x) : Quiet (loading x) := by
  intro dir list s sound
  refine (loading_ends (steady sound)).mono ?_ ?_
  · rintro a _ ⟨library, sound', rfl⟩
    exact ⟨sound', rfl⟩
  · rintro e _ ⟨_, library, sound', rfl⟩
    exact ⟨sound', rfl⟩

theorem quiet_install (loaded : LoadedPart) : Quiet (install loaded) := by
  refine .bind (quiet_loading ?_) fun _ _ _ s sound => ⟨sound, rfl⟩
  -- whatever is told to the log
  generalize Machine.enterNotes loaded.part loaded.bytecode = notes
  induction notes with
  | nil => exact .pure _
  | cons e notes ih => exact .bind (Library.steady_note e) fun _ => ih

theorem quiet_enterPart (id : UInt16) : Quiet (enterPart id) :=
  .bind (quiet_loading (Library.steady_loadPart id)) quiet_install

theorem quiet_switchPart : Quiet switchPart := by
  refine .bind (quiet_loading Library.steady_takeRequest) fun requested => ?_
  cases requested with
  | none => exact .pure _
  | some id =>
    exact .bind .get fun _ => .bind (quiet_loading (Library.steady_note _)) fun _ =>
      quiet_enterPart id

/-! ### Frames -/

/-- **What a frame plays and draws.** -/
theorem stamped_frame (sound : Sound dir list s.stage.library) :
    let stamped (s' : Session) :=
      Stage.Stamped dir list s.stage.recorder.calls.toList (s'.stage, s.stamps)
    Ends frame s (fun _ => stamped) fun _ => stamped := by
  intro stamped
  refine (stamped_pass sound).bind fun _ s₁ passed => ?_
  have quiet (s' : Session) (here : Sound dir list s'.stage.library ∧
      s'.stage.recorder = s₁.stage.recorder) : stamped s' := by
    refine ⟨here.1, ?_, passed.permitted⟩
    dsimp only
    rw [here.2]
    exact passed.calls
  exact (quiet_switchPart passed.sound).mono (fun _ => quiet) fun _ => quiet

/-- **A session that has been started is true to its banks and has recorded nothing.** -/
theorem sound_start {library : Library} {config : MachineConfig} {seed part : UInt16}
    {first : Session} (started : start library config seed part = .ok () first) :
    Sound library.store.dir library.store.list first.stage.library ∧
      first.stage.recorder = .empty := by
  have loads := loading_ends (s := fresh library config seed) (Library.loadPart_sound part library)
  have ends : Ends (enterPart part) (fresh library config seed)
      (fun _ s' => Sound library.store.dir library.store.list s'.stage.library ∧
        s'.stage.recorder = .empty) fun _ _ => True := by
    refine (loads.mono (fun _ _ here => here) fun _ _ _ => trivial).bind ?_
    rintro loaded _ ⟨library', sound, rfl⟩
    exact (quiet_install loaded sound).mono (fun _ _ here => here) fun _ _ _ => trivial
  exact ends.of_ok started

theorem Frames.sound {first : Session} {played : List (Bool × List Part)}
    (frames : Frames first played s) (sound : Sound dir list first.stage.library) :
    Sound dir list s.stage.library := by
  induction frames with
  | nil => exact sound
  | @succeeds _ s _ before tracing done ih =>
    exact ((stamped_frame (s := s.withTracing tracing) ih).of_ok done).sound
  | @fails _ s _ _ before tracing failed ih =>
    exact ((stamped_frame (s := s.withTracing tracing) ih).of_error failed).sound

/-- **A session plays and draws only what it has in memory.** The calls that a frame adds to those
recorded before, whether it succeeds or fails, are those of its stamps. Each sound that is played,
each music and each picture is, on the stage of its stamp, all there: a resource of the memory list
of the right kind, loaded, with its data in memory. No music has one of the two ids that name the
music that plays, since these adjust or stop it. And a sound or a music that cannot be played leaves
an entry in the log and nothing else: the machine goes on behind it. -/
theorem Frames.media_safe {library : Library} {config : MachineConfig} {seed part : UInt16}
    {first s : Session} (started : start library config seed part = .ok () first)
    {played : List (Bool × List Part)} (frames : Frames first played s) (tracing : Tracing) :
    let stamps := (s.withTracing tracing).stamps
    let recorded (s' : Session) :=
      s'.stage.recorder.calls.toList = s.stage.recorder.calls.toList ++ stamps.map Prod.fst
    first.stage.recorder.calls = #[] ∧
      Ends frame (s.withTracing tracing) (fun _ => recorded) (fun _ => recorded) ∧
      (∀ c stage, (c, stage) ∈ stamps →
        (∀ id channel volume frequency, c = .playSound id channel volume frequency →
          stage.Ready .sound id) ∧
        (∀ id position delay, c = .playMusic id position delay →
          id ≠ 0 ∧ id ≠ 0xffff ∧ stage.Ready .music id) ∧
        ∀ id, c = .drawBitmap id → stage.Ready .bitmap id) ∧
      (∀ (m : Machine) (stage : Stage) (t : Fin threadCount) (pc : UInt16) (next : Nat)
          (id : UInt16),
        let unusable (kind : Resource.Kind) := ∀ e, stage.library.store.list.get? id = some e →
          e.kind = kind → stage.library.store.state? id ≠ some .loaded
        (∀ delay position, id = 0 ∨ id = 0xffff →
          Machine.execute Stage.host m stage t pc (.music id delay position) next
            = (stage.call (if position = 0 ∧ delay = 0 then .stopMusic
                else .adjustMusic position delay), .ok next m)) ∧
        (∀ delay position, id ≠ 0 → id ≠ 0xffff → unusable .music →
          ∃ e, Machine.execute Stage.host m stage t pc (.music id delay position) next
            = (stage.note e, .ok next m)) ∧
        ∀ frequency volume channel, unusable .sound →
          ∃ e, Machine.execute Stage.host m stage t pc (.sound id frequency volume channel) next
            = (stage.note e, .ok next m)) ∧
      ∀ e : Execution,
        ((∃ id frequency volume channel, e.instruction = .sound id frequency volume channel) ∨
          ∃ id delay position, e.instruction = .music id delay position) →
        e.isCompleted = true ∧ e.after = e.before.setPc e.thread e.next.toUInt16 := by
  intro stamps recorded
  obtain ⟨sound₀, empty⟩ := sound_start started
  have sound : Sound library.store.dir library.store.list (s.withTracing tracing).stage.library :=
    frames.sound sound₀
  refine ⟨?_, ?_, fun c stage member => ?_, fun m stage t pc next id => ?_, fun e plays => ?_⟩
  · rw [empty]
    rfl
  · exact (stamped_frame sound).mono (fun _ _ stamped => stamped.calls) fun _ _ stamped =>
      stamped.calls
  · obtain ⟨permitted, sound'⟩ := (stamped_run sound).permitted _ member
    dsimp only at permitted sound'
    refine ⟨?_, ?_, ?_⟩
    · rintro id channel volume frequency rfl
      exact Stage.ready_of_offers sound' permitted
    · rintro id position delay rfl
      obtain ⟨⟨zero, last⟩, offered⟩ := permitted
      exact ⟨zero, last, Stage.ready_of_offers sound' offered⟩
    · rintro id rfl
      exact Stage.ready_of_offers sound' permitted
  · have refused {kind : Resource.Kind} (unusable : ∀ e,
        stage.library.store.list.get? id = some e → e.kind = kind →
          stage.library.store.state? id ≠ some .loaded) : ¬ Stage.host.Offers stage kind id := by
      rw [Stage.offers_iff]
      rintro ⟨e, entry, same, loaded⟩
      exact unusable e entry same loaded
    refine ⟨fun delay position current => ?_, fun delay position zero last unusable => ?_,
      fun frequency volume channel unusable => ?_⟩
    · exact congrArg (·, _)
        (Machine.executeMusic_of_current Stage.host stage current delay position)
    · rcases Machine.executeMusic_spec Stage.host stage (not_or.2 ⟨zero, last⟩) delay position with
        ⟨offered, -⟩ | ⟨-, e, told⟩
      · exact absurd offered (refused unusable)
      · exact ⟨e, congrArg (·, _) told⟩
    · rcases Machine.executeSound_spec Stage.host stage id frequency volume channel with
        ⟨offered, -⟩ | ⟨-, e, told⟩
      · exact absurd offered (refused unusable)
      · exact ⟨e, congrArg (·, _) told⟩
  · obtain ⟨σ, h, host, gives⟩ := e.executed
    have done : e.outcome = .ok e.next e.before := by
      rw [← gives]
      exact Machine.execute_of_plays plays h e.before host e.thread _ _
    exact ⟨Execution.isCompleted_of_ok done, Execution.after_of_ok done⟩

/-- The introduction loads a sound and plays it, loads a music and plays it as music and as a sound,
which is passed over, loads a picture, and stops the music. -/
theorem Frames.media_safe_introduction :
    let bank : Bytes := #[0x19, 0, 1, 0x18, 0, 1, 7, 8, 9, 0x19, 0, 2, 0x1a, 0, 2, 0, 5, 6,
      0x18, 0, 2, 7, 8, 9, 0x19, 0, 3, 0x1a, 0, 0, 0, 0, 0, 0x06]
    let kind (id : Nat) : Resource.Kind :=
      if id = 1 then .sound else if id = 2 then .music else if id = 3 then .bitmap else .bytecode
    let entry (id : Nat) : MemoryEntry := ⟨id.toUInt16, .notNeeded, kind id, 0, 1, 0, 34, 34⟩
    let library : Library := .ofStore (.ofList "game" ⟨(Array.range 0x1a).map entry⟩)
      ⟨[(["game"], .directory), (["BANK01", "game"], .file bank)]⟩
    ∃ first, start library .standard 0 0x3e81 = .ok () first ∧
      let stamps := (first.withTracing .off).stamps
      stamps.map Prod.fst = [.playSound 1 9 8 7, .playMusic 2 6 5, .drawBitmap 3, .stopMusic] ∧
        (∃ stage, (.playSound 1 9 8 7, stage) ∈ stamps ∧ stage.Ready .sound 1) ∧
        (∃ stage, (.playMusic 2 6 5, stage) ∈ stamps ∧ stage.Ready .music 2) ∧
        ∃ stage, (.drawBitmap 3, stage) ∈ stamps ∧ stage.Ready .bitmap 3 := by
  intro bank kind entry library
  have runs : Ends (enterPart 0x3e81) (fresh library .standard 0)
      (fun _ first => (first.withTracing .off).stamps.map Prod.fst
        = [.playSound 1 9 8 7, .playMusic 2 6 5, .drawBitmap 3, .stopMusic])
      fun _ _ => False := by
    decide +kernel
  obtain ⟨_, first, started, calls⟩ := runs.exists_ok
  obtain ⟨-, -, safe, -⟩ := Frames.media_safe started Frames.nil .off
  have stamp (c : HostCall) (made : c ∈ (first.withTracing .off).stamps.map Prod.fst) :
      ∃ stage, (c, stage) ∈ (first.withTracing .off).stamps := by
    obtain ⟨⟨_, stage⟩, member, rfl⟩ := List.mem_map.1 made
    exact ⟨stage, member⟩
  obtain ⟨sound, played⟩ := stamp (.playSound 1 9 8 7) (by rw [calls]; simp)
  obtain ⟨music, begun⟩ := stamp (.playMusic 2 6 5) (by rw [calls]; simp)
  obtain ⟨picture, drawn⟩ := stamp (.drawBitmap 3) (by rw [calls]; simp)
  refine ⟨first, started, calls, ⟨sound, played, ?_⟩, ⟨music, begun, ?_⟩, picture, drawn, ?_⟩
  · exact (safe _ _ played).1 _ _ _ _ rfl
  · exact ((safe _ _ begun).2.1 _ _ _ rfl).2.2
  · exact (safe _ _ drawn).2.2 _ rfl

end Session

end Cinematic
