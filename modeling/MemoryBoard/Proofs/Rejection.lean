import MemoryBoard.Proofs.Config.Acceptance
import MemoryBoard.Proofs.MemoryMap.Invariant

set_option autoImplicit false

namespace MemoryBoard

namespace MemoryMap

open Document Yaml

variable {setting : Setting} {state next : State} {event : Event} {error : MemoryMapError}
  {first : Int}

/-- A state with another count in its current segment. -/
def State.counted (state : State) (count : Int) : State :=
  { state with current := state.current.counted count }

/-- Whether states differ in the count of their current segment at most. -/
def State.Alike (first second : State) : Prop :=
  ∃ count, second = first.counted count

theorem State.Alike.refl (state : State) : state.Alike state :=
  ⟨state.current.count, rfl⟩

/-- The count that a segment has is not looked at where it is given its own. -/
theorem close_counted (closed : close setting state = (next, none)) (count : Int) :
    close setting (state.counted count) = (next, none) := by
  have checks : check (state.counted count).current = check state.current := rfl
  have same (first : Int) : extent setting (state.counted count).current first =
      extent setting state.current first := rfl
  unfold close at closed ⊢
  rw [checks]
  split at closed
  · cases closed
  simp only [same]
  split at closed
  · cases closed
  exact closed

theorem store_counted {current stored : Segment} {field : Field} {text : Text.CodeText}
    (stores : store setting current field text = .ok stored) (count : Int) :
    store setting (current.counted count) field text = .ok (stored.counted count) := by
  obtain ⟨source, reads, rfl⟩ := store_eq_ok.mp stores
  refine store_eq_ok.mpr ⟨source, reads, ?_⟩
  cases field <;> rfl

/-- What is accepted in a state is accepted in any that is alike. -/
theorem Step.counted (step : Step setting state event next) (count : Int) :
    ∃ other, Step setting (state.counted count) event other ∧ next.Alike other := by
  cases step with
  | begin kind => exact ⟨_, .begin kind, count, rfl⟩
  | finish kind => exact ⟨_, .finish kind, count, rfl⟩
  | openDocument kind => exact ⟨_, .openDocument kind, State.Alike.refl _⟩
  | closeDocument kind closed =>
    exact ⟨next, .closeDocument kind (close_counted closed count), State.Alike.refl next⟩
  | openMapping kind => exact ⟨_, .openMapping kind, count, rfl⟩
  | closeMapping kind => exact ⟨_, .closeMapping kind, count, rfl⟩
  | key kind named fresh => exact ⟨_, .key kind named fresh, count, rfl⟩
  | value kind stored => exact ⟨_, .value kind (store_counted stored count), count, rfl⟩

theorem feed_alike {other : State} (alike : state.Alike other)
    (accepted : feed setting state event = (next, none)) :
    ∃ onward, feed setting other event = (onward, none) ∧ next.Alike onward := by
  obtain ⟨count, rfl⟩ := alike
  obtain ⟨onward, step, still⟩ := (step_of_feed accepted).counted count
  exact ⟨onward, step.feed, still⟩

theorem alike_of_rejected {other : State} (alike : state.Alike other)
    (rejected : feed setting state event = (next, some error)) : next.Alike other := by
  obtain ⟨count, rfl⟩ := alike
  rcases feed_rejected rejected with same | ⟨_, _, _, _, _, same⟩ <;> rw [same] <;>
    exact ⟨count, rfl⟩

theorem check_ne_tooBig {segment : Segment} : check segment ≠ .error (.tooBig first) := by
  intro failed
  unfold check at failed
  repeat' split at failed
  all_goals cases failed

theorem extent_ne_tooBig {segment : Segment} {start : Int} :
    extent setting segment start ≠ .error (.tooBig first) := by
  intro failed
  unfold extent at failed
  repeat' split at failed
  all_goals cases failed

theorem store_ne_tooBig {segment : Segment} {field : Field} {text : Text.CodeText} :
    store setting segment field text ≠ .error (.tooBig first) := by
  intro failed
  cases field <;> simp only [store, Scan.converted] at failed
  all_goals
    repeat' split at failed
    all_goals cases failed

/-- The end of a document whose segment, which begins at `first`, takes more addresses than there
are, or than its own end leaves. The count that was found stays behind. -/
structure Overflows (setting : Setting) (state : State) (event : Event) (first : Int)
    (next : State) : Prop where
  phase : state.phase = .document
  kind : event.kind = .documentEnd
  start : state.current.start = some first
  counted : ∃ count, Measured setting state.current first count ∧
    (0x10000 < first + count ∨
      ∃ last, state.current.last = some last ∧ last - first + 1 < count) ∧
    next = state.counted count

theorem close_tooBig (tidy : Tidy state.current)
    (closed : close setting state = (next, some (.tooBig first))) :
    state.current.start = some first ∧ ∃ count, Measured setting state.current first count ∧
      (0x10000 < first + count ∨
        ∃ last, state.current.last = some last ∧ last - first + 1 < count) ∧
      next = state.counted count := by
  unfold close at closed
  split at closed
  · rename_i error refused
    cases closed
    exact absurd refused check_ne_tooBig
  rename_i start checked
  obtain ⟨begins, _, placed, single, _⟩ := check_eq_ok.mp checked
  split at closed
  · rename_i error refused
    cases closed
    exact absurd refused extent_ne_tooBig
  rename_i count extended
  simp only at closed
  split at closed
  · cases closed
  rename_i large
  cases closed
  exact ⟨begins, count, (extent_eq_ok tidy placed single).mp extended,
    not_fits_iff.mp large, rfl⟩

/-- No other event is rejected for the size of a segment. -/
theorem feed_tooBig (tidy : Tidy state.current)
    (rejected : feed setting state event = (next, some (.tooBig first))) :
    Overflows setting state event first next := by
  unfold feed at rejected
  split at rejected
  -- The end of a document, a key and a value are what can be rejected for more than their kind.
  case h_5 phase kind =>
    obtain ⟨start, counted⟩ := close_tooBig tidy rejected
    exact ⟨phase, kind, start, counted⟩
  case h_6 =>
    split at rejected
    · cases rejected
    · split at rejected <;> cases rejected
  case h_8 =>
    split at rejected
    · rename_i refused
      cases rejected
      exact absurd refused store_ne_tooBig
    · cases rejected
  all_goals cases rejected

/-- A rejected event changes nothing, if not the count of a segment that is too big. -/
theorem feed_unchanged (rejected : feed setting state event = (next, some error))
    (other : ∀ first, error ≠ .tooBig first) : next = state := by
  rcases feed_rejected rejected with same | ⟨_, _, first, _, tooBig, _⟩
  · exact same
  · exact absurd tooBig (other first)

theorem feed_tidy (setting : Setting) (state : State) (event : Event)
    (tidy : Tidy state.current) : Tidy (feed setting state event).1.current := by
  rcases fed : feed setting state event with ⟨next, outcome⟩
  cases outcome with
  | none => exact tidy.step (step_of_feed fed)
  | some error =>
    rcases feed_rejected fed with same | ⟨_, _, _, count, _, same⟩ <;> rw [same]
    · exact tidy
    · exact tidy.counted count

theorem tidy_takeAll (setting : Setting) (history : List Event) :
    Tidy (takeAll (feed setting) .initial history).current := by
  have start : Tidy State.initial.current := Tidy.empty
  exact takeAll_invariant (feed_tidy setting) start

end MemoryMap

open Document

/-- Behind any events at all, a reader of memory maps or of settings that rejects one is left as it
was, but for the count of a segment that is too big. And if the rejected events are taken out, it
accepts each of those that remain and comes to the same phase with the same segments and keys seen
or the same settings; only the count of its current segment may differ. -/
theorem rejected_forgotten :
    (∀ (setting : MemoryMap.Setting) (history : List Yaml.Event),
      let feed := MemoryMap.feed setting
      let kept := accepted feed .initial history
      let state := takeAll feed .initial history
      let alone := takeAll feed .initial kept
      (∀ event next error, feed state event = (next, some error) →
        (∀ first, error = .tooBig first → MemoryMap.Overflows setting state event first next) ∧
          ((∀ first, error ≠ .tooBig first) → next = state)) ∧
      answers feed .initial kept = (answers feed .initial history).filter Option.isNone ∧
      alone.phase = state.phase ∧ alone.segments = state.segments ∧ alone.seen = state.seen ∧
      ∃ count, alone.current = state.current.counted count) ∧
    (∀ (config : BoardConfig) (history : List Yaml.Event),
      let feed := Config.feed
      let kept := accepted feed (.initial config) history
      let state := takeAll feed (.initial config) history
      (∀ event next error, feed state event = (next, some error) → next = state) ∧
      answers feed (.initial config) kept =
        (answers feed (.initial config) history).filter Option.isNone ∧
      takeAll feed (.initial config) kept = state) := by
  constructor
  · intro setting history feed kept state alone
    have tidy : MemoryMap.Tidy state.current := MemoryMap.tidy_takeAll setting history
    obtain ⟨same, count, whole⟩ : answers feed .initial kept =
        (answers feed .initial history).filter Option.isNone ∧ state.Alike alone :=
      takeAll_accepted MemoryMap.State.Alike
        (fun _ _ _ _ alike taken => MemoryMap.feed_alike alike taken)
        (fun _ _ _ _ _ alike taken => MemoryMap.alike_of_rejected alike taken)
        (MemoryMap.State.Alike.refl .initial)
    refine ⟨fun event next error rejected => ⟨?_, MemoryMap.feed_unchanged rejected⟩, same, ?_⟩
    · intro first tooBig
      subst tooBig
      exact MemoryMap.feed_tooBig tidy rejected
    · rw [whole]
      exact ⟨rfl, rfl, rfl, count, rfl⟩
  · intro config history feed kept state
    obtain ⟨same, final⟩ : answers feed (.initial config) kept =
        (answers feed (.initial config) history).filter Option.isNone ∧
          state = takeAll feed (.initial config) kept :=
      takeAll_accepted Eq (fun _ _ _ next alike taken => ⟨next, alike ▸ taken, rfl⟩)
        (fun _ _ _ _ _ alike taken => (Config.feed_error taken).trans alike) rfl
    exact ⟨fun event next error rejected => Config.feed_error rejected, same, final.symm⟩

end MemoryBoard
