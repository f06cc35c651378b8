import MemoryBoard.Proofs.Config.Acceptance
import MemoryBoard.Proofs.Yaml.Outline

set_option autoImplicit false

namespace MemoryBoard.Config

open Yaml

/-- The events up to the first that is rejected, or to the one that ends the reading. -/
def taken (state : State) (events : List Event) : List Event :=
  Document.taken feed State.done state events

/-- Settings over others, with what is assigned to a field in its place. -/
def Overrides (assigned : List (List Text.CodeText × Text.CodeText)) (old new : BoardConfig) :
    Prop :=
  ∀ (field : Field) (drive : Fin driveCount),
    match lastValue? assigned (field.path drive) with
    | none => field.Same drive old new
    | some text => field.Reads drive text new

/-- The keys that lead to a mapping, from the innermost on. -/
def Group.keys (drive : Fin driveCount) : Group → List Text.CodeText
  | wifi => ["wifi"]
  | video => ["video"]
  | fdc => ["fdc"]
  | disk => [driveKey drive, "fdc"]

/-- The keys whose values are due. -/
def pending (drive : Fin driveCount) : Phase → List (Option Text.CodeText)
  | .start | .stream | .document | .stop => []
  | .top => [none]
  | .opening group => (group.keys drive).map some
  | .inside group => none :: (group.keys drive).map some
  | .value field => some field.name :: (field.group.keys drive).map some

variable {drive : Fin driveCount} {key : Text.CodeText}

theorem keys_of_mem {group : Group} (known : (key, group) ∈ sections) :
    group.keys drive = [key] := by
  have each : ∀ entry ∈ sections, entry.2.keys drive = [entry.1] := by
    intro entry member
    simp only [sections, List.mem_cons, List.not_mem_nil, or_false] at member
    rcases member with same | same | same <;> rw [same] <;> rfl
  exact each _ known

theorem path_eq (field : Field) :
    ((pending drive (.value field)).filterMap id).reverse = field.path drive := by
  cases field <;> rfl

/-- A reader that has come behind some events, and what they made of the settings. -/
structure Tracks (initial : BoardConfig) (state : State) (past : List Event) : Prop where
  keys : (outline past).keys = pending state.disk state.phase
  settings : Overrides (assignments past) initial state.config

variable {initial : BoardConfig} {state next : State} {past : List Event} {event : Event}

theorem Overrides.concat {assigned : List (List Text.CodeText × Text.CodeText)}
    {old current final : BoardConfig} {field : Field} {text : Text.CodeText} (settings : Overrides assigned old current)
    (stored : store current drive field text = .ok final) :
    Overrides (assigned ++ [(field.path drive, text)]) old final := by
  obtain ⟨reads, put⟩ := store_reads stored
  intro other place
  rw [lastValue?_concat]
  by_cases same : field.path drive = other.path place
  · rw [if_pos same]
    exact reads.of_path_eq same.symm
  · rw [if_neg same]
    have kept : other.Same place current final := by
      rw [put]
      exact Field.same_put_other (Ne.symm same)
    have before := settings other place
    split at before
    · exact before.trans kept
    · exact before.same kept

theorem Tracks.outline (tracks : Tracks initial state past) :
    outline past = ⟨pending state.disk state.phase, assignments past⟩ := by
  rw [← tracks.keys]
  rfl

/-- An event that the keys go along with, and that assigns nothing. -/
theorem Tracks.quiet {phase : Phase} {place : Fin driveCount} (tracks : Tracks initial state past)
    (quiet : ∀ assigned, Outline.step ⟨pending state.disk state.phase, assigned⟩ event =
      ⟨pending place phase, assigned⟩) :
    Tracks initial ⟨phase, state.config, place⟩ (past ++ [event]) := by
  have after : Yaml.outline (past ++ [event]) = ⟨pending place phase, assignments past⟩ := by
    rw [outline_concat, tracks.outline, quiet]
  constructor
  · rw [after]
  · rw [assignments, after]
    exact tracks.settings

/-- The value of a field, which the reader stores and the keys lead to. -/
theorem Tracks.assign {field : Field} {config final : BoardConfig}
    (tracks : Tracks initial ⟨.value field, config, drive⟩ past) (kind : event.kind = .scalar)
    (stored : store config drive field event.text = .ok final) :
    Tracks initial ⟨.inside field.group, final, drive⟩ (past ++ [event]) := by
  have after : Yaml.outline (past ++ [event]) = ⟨pending drive (.inside field.group),
      assignments past ++ [(field.path drive, event.text)]⟩ := by
    rw [outline_concat, tracks.outline, ← path_eq]
    simp only [Outline.step, kind, pending]
  constructor
  · rw [after]
  · rw [assignments, after]
    exact tracks.settings.concat stored

/-- Every accepted event leaves the reader where its keys are. -/
theorem Tracks.step (tracks : Tracks initial state past) (step : Step state event next) :
    Tracks initial next (past ++ [event]) := by
  cases step with
  | value kind stored => exact tracks.assign kind stored
  | group kind known =>
    apply tracks.quiet
    intro assigned
    simp only [Outline.step, kind, pending, keys_of_mem known, List.map_cons, List.map_nil]
  | field kind known =>
    apply tracks.quiet
    intro assigned
    simp only [Outline.step, kind, pending, name_of_mem known, group_of_mem known]
  | disk kind driven =>
    apply tracks.quiet
    intro assigned
    simp [Outline.step, kind, pending, driven, Group.keys]
  | @closeGroup _ _ _ group kind =>
    apply tracks.quiet
    intro assigned
    -- The end of a mapping completes the value of its key, and for a disk leaves that of `fdc` due.
    cases group <;> simp [Outline.step, kind, pending, Group.parent, Group.keys]
  | _ kind =>
    apply tracks.quiet
    intro assigned
    simp [Outline.step, kind, pending]

/-- The settings after reading, whether it succeeds or not, are those before with the last value
that the accepted events assign to each field in its place. -/
theorem consume_overrides (config : BoardConfig) (events : List Event) :
    Overrides (assignments (taken (.initial config) events)) config
      (consume (.initial config) events).1.config := by
  have start : Tracks config (.initial config) [] := by
    constructor
    · rfl
    · intro field drive
      exact Field.Same.refl drive config field
  have whole : Tracks config (consume (.initial config) events).1
      ([] ++ taken (.initial config) events) := by
    refine Document.consume_invariant ?_ ?_ start
    · intro state event next past tracks accepted
      exact tracks.step (feed_eq_ok.mp accepted)
    · intro state event next error past tracks rejected
      rw [feed_error rejected]
      exact tracks
  exact whole.settings

/-- Reading events succeeds just if they are a stream of documents that the grammar gives, and in
any case leaves each field with the last value that the events up to the first rejected one assign
to it. -/
theorem consume_iff_stream_overrides (config : BoardConfig) (events : List Event) :
    ((∃ final, consume (.initial config) events = (final, none)) ↔ Stream events) ∧
      Overrides (assignments (taken (.initial config) events)) config
        (consume (.initial config) events).1.config := by
  refine ⟨?_, consume_overrides config events⟩
  exact consume_iff_rest Phase.noConfusion

end MemoryBoard.Config
