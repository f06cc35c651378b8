import MemoryBoard.Proofs.MemoryMap.Building

set_option autoImplicit false

namespace MemoryBoard

/-- Whether an error is one that memory maps have. -/
def MemoryMapError.IsOwn (error : MemoryMapError) : Prop :=
  ∀ cause, error ≠ .defect cause

/-- Whether an error is one that layouts have. -/
def LayoutError.IsOwn (error : LayoutError) : Prop :=
  ∀ cause, error ≠ .defect cause

namespace MemoryMap

open Document Yaml

variable {setting : Setting} {state next : State} {event : Event} {cause : Defect}

theorem check_isOwn (segment : Segment) : FailsWith MemoryMapError.IsOwn (check segment) := by
  unfold check
  repeat' split
  all_goals first | exact .ok _ | exact .error nofun

/-- Only the measuring of a file can meet a defect. -/
theorem extent_eq_defect {segment : Segment} {start : Int}
    (failed : extent setting segment start = .error (.defect cause)) :
    ∃ path, segment.path = some path ∧ setting.size path = .error (.defect cause) := by
  simp only [extent] at failed
  split at failed
  · cases failed
  split at failed
  · cases failed
  rename_i path located
  split at failed
  · cases failed
  · cases failed
  · rename_i size
    cases failed
    exact ⟨path, located, size⟩

theorem close_eq_defect (failed : close setting state = (next, some (.defect cause))) :
    ∃ path, state.current.path = some path ∧ setting.size path = .error (.defect cause) := by
  unfold close at failed
  split at failed
  · rename_i error refused
    cases failed
    exact absurd rfl (check_isOwn _ _ refused cause)
  split at failed
  · rename_i error refused
    cases failed
    exact extent_eq_defect refused
  simp only at failed
  split at failed <;> cases failed

theorem feed_eq_defect (failed : feed setting state event = (next, some (.defect cause))) :
    (∃ field, state.phase = .value field ∧ field.Stops event.text cause) ∨
      ∃ path, state.current.path = some path ∧ setting.size path = .error (.defect cause) := by
  unfold feed at failed
  split at failed
  · cases failed
  · cases failed
  · cases failed
  · cases failed
  · exact Or.inr (close_eq_defect failed)
  · split at failed
    · cases failed
    · split at failed <;> cases failed
  · cases failed
  · rename_i field phase _
    split at failed
    · rename_i error refused
      cases failed
      exact Or.inl ⟨field, phase, store_eq_defect.mp refused⟩
    · cases failed
  · cases failed

/-- Where a value is due the last event was its key, and the path of the segment is where a file
name among the events leads. -/
structure Told (setting : Setting) (state : State) (past : List Event) : Prop where
  led : ∀ field, state.phase = .value field → EndsIn past field.key
  named : ∀ path, state.current.path = some path →
    ∃ text, HasEntry past Field.file.key text ∧ setting.resolve text = path

theorem Told.stored {past : List Event} {stored : Segment} {field : Field}
    (told : Told setting state past) (due : state.phase = .value field)
    (success : store setting state.current field event.text = .ok stored) (path : Path)
    (located : stored.path = some path) :
    ∃ text, HasEntry (past ++ [event]) Field.file.key text ∧ setting.resolve text = path := by
  obtain ⟨source, reads, rfl⟩ := store_eq_ok.mp success
  by_cases here : field = .file
  · subst here
    obtain ⟨_, _, leads⟩ := reads
    have same : some (setting.resolve event.text) = some path := leads.symm.trans located
    exact ⟨event.text, (told.led _ due).hasEntry event [], Option.some.inj same⟩
  · have kept := Field.same_put_other source state.current (Ne.symm here)
    obtain ⟨text, entry, leads⟩ := told.named path (kept.2.trans located)
    exact ⟨text, entry.append [event], leads⟩

theorem close_path (success : close setting state = (next, none)) :
    next.phase = .stream ∧ next.current.path = state.current.path := by
  unfold close at success
  split at success
  · cases success
  split at success
  · cases success
  simp only at success
  split at success
  · cases success
    exact ⟨rfl, rfl⟩
  · cases success

theorem Told.accepted {past : List Event} (told : Told setting state past)
    (accepted : feed setting state event = (next, none)) :
    Told setting next (past ++ [event]) := by
  have kept (path : Path) (located : state.current.path = some path) :
      ∃ text, HasEntry (past ++ [event]) Field.file.key text ∧ setting.resolve text = path := by
    obtain ⟨text, entry, leads⟩ := told.named path located
    exact ⟨text, entry.append [event], leads⟩
  cases step_of_feed accepted with
  | openDocument kind => exact ⟨nofun, nofun⟩
  | closeDocument kind closed =>
    obtain ⟨phase, path⟩ := close_path closed
    refine ⟨fun field due => ?_, fun _ located => kept _ (path ▸ located)⟩
    rw [phase] at due
    cases due
  | key kind known fresh =>
    refine ⟨fun field due => ?_, kept⟩
    cases due
    exact ⟨past, event, rfl, known.symm⟩
  | value kind stored => exact ⟨nofun, told.stored rfl stored⟩
  | _ => exact ⟨nofun, kept⟩

/-- Reading meets a defect where its events end with one, where a value among them is met with one,
or where the path that a file name among them leads to is. -/
theorem read_eq_defect {reading : Yaml.Reading}
    (failed : read setting reading = (state, some (.defect cause))) :
    reading.fault = some (.defect cause) ∨
      (∃ field text, HasEntry reading.events (Field.key field) text ∧ field.Stops text cause) ∨
      ∃ text, HasEntry reading.events Field.file.key text ∧
        setting.size (setting.resolve text) = .error (.defect cause) := by
  have start : Told setting .initial [] := ⟨nofun, nofun⟩
  rcases consume_rejected (fun _ _ _ _ told => told.accepted) start failed with
    ended | ⟨before, between, event, rest, split, told, rejected⟩
  · left
    split at ended
    · cases ended
    · rename_i fault behind
      cases ended
      exact behind
    · cases ended
  · rw [split]
    rcases feed_eq_defect rejected with ⟨field, due, stops⟩ | ⟨path, located, unmeasured⟩
    · exact Or.inr (Or.inl ⟨field, event.text, (told.led field due).hasEntry event rest, stops⟩)
    · obtain ⟨text, entry, rfl⟩ := told.named path located
      exact Or.inr (Or.inr ⟨text, entry.append (event :: rest), unmeasured⟩)

end MemoryMap

namespace Layout

variable {files : Setting} {segment : Segment} {start : Int}

theorem needed_isOwn {address : Option Int} (given : address.isSome) :
    FailsWith LayoutError.IsOwn (needed address) := by
  obtain ⟨value, rfl⟩ := Option.isSome_iff_exists.mp given
  exact .ok value

theorem onImage_isOwn {α : Type} (outcome : Except ImageError α) :
    FailsWith LayoutError.IsOwn (onImage outcome) := by
  cases outcome with
  | ok value => exact .ok value
  | error error => exact .error nofun

theorem clip_isOwn (small : start ≤ 0xffff) (content : Bytes) :
    FailsWith LayoutError.IsOwn (clip start content) := by
  have room : ¬ ((addressCount : Int) - start + 1 < -1) := by
    unfold addressCount
    omega
  simp only [clip, room, ↓reduceIte]
  split
  · exact .ok _
  · exact .ok _

/-- A segment that lacks nothing that it needs, and whose file has a path that a system may have. -/
structure Equipped (files : Setting) (segment : Segment) : Prop where
  start : ∃ start, segment.start = some start ∧ start ≤ 0xffff
  filled : segment.fill.isSome → segment.last.isSome
  located : ∀ file cause, segment.file = some file →
    files.content (files.pathOf segment file) ≠ .error (.defect cause)

theorem Equipped.payload_isOwn (equipped : Equipped files segment) {file : Text.CodeText}
    (named : segment.file = some file) :
    FailsWith LayoutError.IsOwn (payload files segment file) := by
  obtain ⟨start, given, small⟩ := equipped.start
  unfold payload
  cases found : files.content (files.pathOf segment file) with
  | error error =>
    cases error with
    | system path error => exact .error nofun
    | defect cause => exact absurd found (equipped.located file cause named)
  | ok content =>
    have clipped : FailsWith LayoutError.IsOwn (clip start content >>= fun payload =>
        if start + payload.length > addressCount then .error (.misfit file start)
        else .ok payload) := by
      refine .bind (clip_isOwn small content) fun payload => ?_
      split
      · exact .error nofun
      · exact .ok payload
    rw [given]
    exact clipped

theorem Equipped.place_isOwn (equipped : Equipped files segment) (first : Bool) (image : Image) :
    FailsWith LayoutError.IsOwn (place files first image segment) := by
  have started : segment.start.isSome := by
    obtain ⟨start, given, _⟩ := equipped.start
    rw [given]
    rfl
  have onto {α : Type} (outcome : Int → Except ImageError α) :
      FailsWith LayoutError.IsOwn (needed segment.start >>= fun start => onImage (outcome start)) :=
    .bind (needed_isOwn started) fun _ => onImage_isOwn _
  have fill : FailsWith LayoutError.IsOwn (placeFill segment image) := by
    unfold placeFill
    cases filled : segment.fill with
    | none => exact .ok image
    | some fill =>
      have ends : segment.last.isSome := equipped.filled (by rw [filled]; rfl)
      refine .bind (needed_isOwn started) fun start => ?_
      exact .bind (needed_isOwn ends) fun last => onImage_isOwn _
  have data (image : Image) : FailsWith LayoutError.IsOwn (placeData segment image) := by
    unfold placeData
    split
    · exact onto _
    · exact .ok image
  have file (image : Image) : FailsWith LayoutError.IsOwn (placeFile files segment image) := by
    unfold placeFile
    cases named : segment.file with
    | none => exact .ok image
    | some file => exact .bind (equipped.payload_isOwn named) fun payload => onto _
  exact .bind fill fun image => .bind (data image) fun image => .bind (file image) fun image =>
    onto _

/-- Building segments that lack nothing fails with errors that layouts have. -/
theorem placeFrom_isOwn {segments : List Segment}
    (equipped : ∀ segment ∈ segments, Equipped files segment) (index : Nat) (image : Image) :
    FailsWith (fun failure : Failure => failure.error.IsOwn)
      (placeFrom files index image segments) := by
  induction segments generalizing index image with
  | nil => exact .ok image
  | cons segment rest ih =>
    obtain ⟨first, others⟩ := List.forall_mem_cons.mp equipped
    rw [placeFrom]
    cases placed : place files (index == 0) image segment with
    | error error => exact .error (first.place_isOwn _ _ error placed)
    | ok image => exact ih others _ _

end Layout

namespace MemoryMap

/-- Segments that were read lack nothing, as long as no file has a path that no system has and could
still be measured. -/
theorem Sound.equipped {setting : Setting} {files : Layout.Setting} {segment : Segment}
    {first : Int} (sound : Sound setting segment first)
    (consistent : ∀ path size cause, setting.size path = .ok size →
      files.content path ≠ .error (.defect cause)) : Layout.Equipped files segment where
  start := ⟨first, sound.start, sound.first_bounds.2⟩
  filled := sound.filled
  located := by
    intro file cause named
    have located := sound.path_eq files named
    rcases sound.measured with ⟨_, given, _⟩ | ⟨path, size, found, measured, _⟩ | ⟨_, none, _⟩
    · exact absurd ⟨by rw [given]; rfl, by rw [named]; rfl⟩ sound.single
    · rw [located] at found
      cases found
      exact consistent _ size cause measured
    · rw [located] at none
      cases none

end MemoryMap

end MemoryBoard
