import MemoryBoard.Proofs.Config.Language
import MemoryBoard.Proofs.Document

set_option autoImplicit false

namespace MemoryBoard.Config

open Yaml

/-- Everything that an accepted event can do. -/
inductive Step : State → Event → State → Prop where
  | begin {config : BoardConfig} {drive : Fin driveCount} {event : Event} :
      event.kind = .streamStart → Step ⟨.start, config, drive⟩ event ⟨.stream, config, drive⟩
  | finish {config : BoardConfig} {drive : Fin driveCount} {event : Event} :
      event.kind = .streamEnd → Step ⟨.stream, config, drive⟩ event ⟨.stop, config, drive⟩
  | openDocument {config : BoardConfig} {drive : Fin driveCount} {event : Event} :
      event.kind = .documentStart → Step ⟨.stream, config, drive⟩ event ⟨.document, config, drive⟩
  | closeDocument {config : BoardConfig} {drive : Fin driveCount} {event : Event} :
      event.kind = .documentEnd → Step ⟨.document, config, drive⟩ event ⟨.stream, config, drive⟩
  | openTop {config : BoardConfig} {drive : Fin driveCount} {event : Event} :
      event.kind = .mappingStart → Step ⟨.document, config, drive⟩ event ⟨.top, config, drive⟩
  | closeTop {config : BoardConfig} {drive : Fin driveCount} {event : Event} :
      event.kind = .mappingEnd → Step ⟨.top, config, drive⟩ event ⟨.document, config, drive⟩
  | group {config : BoardConfig} {drive : Fin driveCount} {event : Event} {group : Group} :
      event.kind = .scalar → (event.text, group) ∈ sections →
      Step ⟨.top, config, drive⟩ event ⟨.opening group, config, drive⟩
  | openGroup {config : BoardConfig} {drive : Fin driveCount} {event : Event} {group : Group} :
      event.kind = .mappingStart →
      Step ⟨.opening group, config, drive⟩ event ⟨.inside group, config, drive⟩
  | closeGroup {config : BoardConfig} {drive : Fin driveCount} {event : Event} {group : Group} :
      event.kind = .mappingEnd →
      Step ⟨.inside group, config, drive⟩ event ⟨group.parent, config, drive⟩
  | field {config : BoardConfig} {drive : Fin driveCount} {event : Event} {group : Group}
      {field : Field} : event.kind = .scalar → (event.text, field) ∈ group.fields →
      Step ⟨.inside group, config, drive⟩ event ⟨.value field, config, drive⟩
  | disk {config : BoardConfig} {drive other : Fin driveCount} {event : Event} :
      event.kind = .scalar → event.text = driveKey other →
      Step ⟨.inside .fdc, config, drive⟩ event ⟨.opening .disk, config, other⟩
  | value {config next : BoardConfig} {drive : Fin driveCount} {event : Event} {field : Field} :
      event.kind = .scalar → store config drive field event.text = .ok next →
      Step ⟨.value field, config, drive⟩ event ⟨.inside field.group, next, drive⟩

variable {state next final : State} {event : Event} {rest events : List Event}

theorem step_of_feed (accepted : feed state event = (next, none)) : Step state event next := by
  obtain ⟨phase, config, drive⟩ := state
  cases phase with
  | start =>
    cases kind : event.kind <;> simp only [feed, kind] at accepted <;> cases accepted
    exact .begin kind
  | stream =>
    cases kind : event.kind <;> simp only [feed, kind] at accepted <;> cases accepted
    · exact .finish kind
    · exact .openDocument kind
  | document =>
    cases kind : event.kind <;> simp only [feed, kind] at accepted <;> cases accepted
    · exact .closeDocument kind
    · exact .openTop kind
  | top =>
    cases kind : event.kind <;> simp only [feed, kind] at accepted
    case scalar =>
      split at accepted <;> cases accepted
      rename_i group found
      exact .group kind (topKey?_eq_some.mp found)
    case mappingEnd =>
      cases accepted
      exact .closeTop kind
    all_goals cases accepted
  | opening group =>
    cases kind : event.kind <;> simp only [feed, kind] at accepted <;> cases accepted
    exact .openGroup kind
  | inside group =>
    cases kind : event.kind <;> simp only [feed, kind] at accepted
    case scalar =>
      split at accepted <;> cases accepted
      · rename_i field found
        exact .field kind (key?_eq_field.mp found)
      · rename_i other found
        obtain ⟨isFdc, driven⟩ := key?_eq_disk.mp found
        subst isFdc
        exact .disk kind driven
    case mappingEnd =>
      cases accepted
      exact .closeGroup kind
    all_goals cases accepted
  | value field =>
    cases kind : event.kind <;> simp only [feed, kind] at accepted
    case scalar =>
      split at accepted <;> cases accepted
      rename_i stored
      exact .value kind stored
    all_goals cases accepted
  | stop =>
    cases kind : event.kind <;> simp only [feed, kind] at accepted <;> cases accepted

theorem Step.feed (step : Step state event next) : feed state event = (next, none) := by
  cases step with
  | group kind known => simp only [feed, kind, topKey?_eq_some.mpr known]
  | field kind known => simp only [feed, kind, key?_eq_field.mpr known]
  | disk kind driven => simp only [feed, kind, key?_eq_disk.mpr ⟨rfl, driven⟩]
  | value kind stored => simp only [feed, kind, stored]
  | _ kind => simp only [feed, kind]

theorem feed_eq_ok : feed state event = (next, none) ↔ Step state event next :=
  ⟨step_of_feed, Step.feed⟩

/-- A rejected event changes nothing. -/
theorem feed_error {error : ConfigError} (rejected : feed state event = (next, some error)) :
    next = state := by
  unfold feed at rejected
  repeat' split at rejected
  all_goals first | (cases rejected; rfl) | cases rejected

/-- An event that can stand where a reader is gets accepted, and the grammar goes on from there. -/
theorem exists_step_of_rest (going : state.phase ≠ .stop)
    (stands : Rest state.phase (event :: rest)) :
    ∃ next, Step state event next ∧ Rest next.phase rest := by
  obtain ⟨phase, config, drive⟩ := state
  cases phase with
  | start =>
    obtain ⟨kind, follows⟩ := stream_cons_iff.mp stands
    exact ⟨_, .begin kind, follows⟩
  | stream =>
    rcases bracketed_cons_iff.mp stands with ⟨kind, follows⟩ | ⟨kind, follows⟩
    · exact ⟨_, .finish kind, follows⟩
    · exact ⟨_, .openDocument kind, follows⟩
  | document =>
    rcases bracketed_cons_iff.mp stands with ⟨kind, follows⟩ | ⟨kind, follows⟩
    · exact ⟨_, .closeDocument kind, follows⟩
    · exact ⟨_, .openTop kind, follows⟩
  | top =>
    rcases sections_cons_iff.mp stands with ⟨kind, follows⟩ | ⟨kind, group, known, follows⟩
    · exact ⟨_, .closeTop kind, follows⟩
    · refine ⟨_, .group kind known, ?_⟩
      rw [Rest, groupRest_of_mem known]
      exact follows
  | opening group =>
    obtain ⟨kind, follows⟩ := opens_cons_iff.mp stands
    exact ⟨_, .openGroup kind, follows⟩
  | inside group =>
    rcases section_cons_iff.mp stands with ⟨kind, follows⟩ |
      ⟨kind, ⟨field, known, follows⟩ | ⟨isFdc, other, driven, follows⟩⟩
    · refine ⟨_, .closeGroup kind, ?_⟩
      rw [rest_parent]
      exact follows
    · refine ⟨_, .field kind known, ?_⟩
      rw [← group_of_mem known] at follows
      exact follows
    · subst isFdc
      exact ⟨_, .disk kind driven, follows⟩
  | value field =>
    obtain ⟨kind, converts, follows⟩ := valued_cons_iff.mp stands
    obtain ⟨next, stored⟩ := exists_store_eq_ok.mpr converts
    exact ⟨_, .value kind stored, follows⟩
  | stop => exact absurd rfl going

/-- An accepted event can stand in front of what the grammar leaves behind it. -/
theorem Step.stands (step : Step state event next) (follows : Rest next.phase rest) :
    Rest state.phase (event :: rest) := by
  cases step with
  | begin kind => exact stream_cons_iff.mpr ⟨kind, follows⟩
  | finish kind => exact bracketed_cons_iff.mpr (Or.inl ⟨kind, follows⟩)
  | openDocument kind => exact bracketed_cons_iff.mpr (Or.inr ⟨kind, follows⟩)
  | closeDocument kind => exact bracketed_cons_iff.mpr (Or.inl ⟨kind, follows⟩)
  | openTop kind => exact bracketed_cons_iff.mpr (Or.inr ⟨kind, follows⟩)
  | closeTop kind => exact sections_cons_iff.mpr (Or.inl ⟨kind, follows⟩)
  | group kind known =>
    rw [Rest, groupRest_of_mem known] at follows
    exact sections_cons_iff.mpr (Or.inr ⟨kind, _, known, follows⟩)
  | openGroup kind => exact opens_cons_iff.mpr ⟨kind, follows⟩
  | closeGroup kind =>
    rw [rest_parent] at follows
    exact section_cons_iff.mpr (Or.inl ⟨kind, follows⟩)
  | field kind known =>
    rw [Rest, group_of_mem known] at follows
    exact section_cons_iff.mpr (Or.inr ⟨kind, Or.inl ⟨_, known, follows⟩⟩)
  | disk kind driven =>
    exact section_cons_iff.mpr (Or.inr ⟨kind, Or.inr ⟨rfl, _, driven, follows⟩⟩)
  | value kind stored =>
    exact valued_cons_iff.mpr ⟨kind, exists_store_eq_ok.mp ⟨_, stored⟩, follows⟩

theorem rest_cons_iff (going : state.phase ≠ .stop) : Rest state.phase (event :: rest) ↔
    ∃ next, Step state event next ∧ Rest next.phase rest := by
  constructor
  · exact exists_step_of_rest going
  · intro ⟨next, step, follows⟩
    exact step.stands follows

theorem done_eq_false : State.done state = false ↔ state.phase ≠ .stop := by
  simp [State.done]

/-- Reading to the end succeeds just if the events are what the grammar leaves. -/
theorem consume_iff_rest (going : state.phase ≠ .stop) :
    (∃ final, consume state events = (final, none)) ↔ Rest state.phase events := by
  have whole : (∃ final, consume state events = (final, none) ∧ True) ↔
      Rest state.phase events := by
    refine Document.consume_iff (fun _ => True) (fun _ => True) (fun state => Rest state.phase)
      ?_ ?_ ?_ ?_ trivial (done_eq_false.mpr going)
    · intro state event next _ _
      trivial
    · intro state events stopped
      have stop : state.phase = .stop := by simpa [State.done] using stopped
      simp [Rest, stop]
    · intro state further
      exact not_rest_nil (done_eq_false.mp further)
    · intro state event rest _ further
      rw [rest_cons_iff (done_eq_false.mp further)]
      simp only [feed_eq_ok]
  simpa only [and_true] using whole

theorem feed_eq_defect {cause : Defect}
    (failed : feed state event = (next, some (.defect cause))) :
    ∃ field, state.phase = .value field ∧ field.Stops event.text cause := by
  unfold feed at failed
  repeat' split at failed
  all_goals cases failed
  -- What is left is a value that is not stored.
  rename_i phase _ _ refused
  exact ⟨_, phase, store_eq_defect.mp refused⟩

/-- Where a value is due the last event was its key. -/
def Led (state : State) (past : List Event) : Prop :=
  ∀ field, state.phase = .value field → Document.EndsIn past field.name

theorem Step.led {past : List Event} (step : Step state event next) :
    Led next (past ++ [event]) := by
  intro field due
  cases step with
  | field kind known =>
    cases due
    exact ⟨past, event, rfl, name_of_mem known⟩
  | closeGroup kind =>
    rename_i group
    cases group <;> cases due
  | _ => cases due

/-- Reading meets a defect just where its events end with one, or where a number among them has too
many digits. -/
theorem read_eq_defect {config : BoardConfig} {reading : Reading} {cause : Defect}
    (failed : read config reading = (final, some (.defect cause))) :
    reading.fault = some (.defect cause) ∨
      ∃ (field : Field) (text : Text.CodeText), Document.HasEntry reading.events field.name text ∧
        field.Stops text cause := by
  have start : Led (.initial config) [] := nofun
  rcases Document.consume_rejected (fun _ _ _ _ _ accepted => (step_of_feed accepted).led) start
    failed with ended | ⟨before, between, event, rest, split, led, rejected⟩
  · left
    split at ended
    · cases ended
    · rename_i fault behind
      cases ended
      exact behind
    · cases ended
  · obtain ⟨field, due, stops⟩ := feed_eq_defect rejected
    rw [split]
    exact Or.inr ⟨field, event.text, (led field due).hasEntry event rest, stops⟩

end MemoryBoard.Config
