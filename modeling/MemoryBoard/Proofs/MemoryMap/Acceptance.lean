import MemoryBoard.Proofs.Document
import MemoryBoard.Proofs.MemoryMap.Language

set_option autoImplicit false

namespace MemoryBoard.MemoryMap

open Yaml

/-- Everything that an accepted event can do. -/
inductive Step (setting : Setting) : State → Event → State → Prop where
  | begin {before : Array Segment} {current : Segment} {seen : List Field} {event : Event} :
      event.kind = .streamStart →
      Step setting ⟨.start, before, current, seen⟩ event ⟨.stream, before, current, seen⟩
  | finish {before : Array Segment} {current : Segment} {seen : List Field} {event : Event} :
      event.kind = .streamEnd →
      Step setting ⟨.stream, before, current, seen⟩ event ⟨.stop, before, current, seen⟩
  | openDocument {before : Array Segment} {current : Segment} {seen : List Field} {event : Event} :
      event.kind = .documentStart →
      Step setting ⟨.stream, before, current, seen⟩ event ⟨.document, before, {}, []⟩
  | closeDocument {before : Array Segment} {current : Segment} {seen : List Field} {event : Event}
      {next : State} : event.kind = .documentEnd →
      close setting ⟨.document, before, current, seen⟩ = (next, none) →
      Step setting ⟨.document, before, current, seen⟩ event next
  | openMapping {before : Array Segment} {current : Segment} {seen : List Field} {event : Event} :
      event.kind = .mappingStart →
      Step setting ⟨.document, before, current, seen⟩ event ⟨.key, before, current, seen⟩
  | closeMapping {before : Array Segment} {current : Segment} {seen : List Field} {event : Event} :
      event.kind = .mappingEnd →
      Step setting ⟨.key, before, current, seen⟩ event ⟨.document, before, current, seen⟩
  | key {before : Array Segment} {current : Segment} {seen : List Field} {event : Event}
      {field : Field} : event.kind = .scalar → field.key = event.text → field ∉ seen →
      Step setting ⟨.key, before, current, seen⟩ event
        ⟨.value field, before, current, field :: seen⟩
  | value {before : Array Segment} {current next : Segment} {seen : List Field} {event : Event}
      {field : Field} : event.kind = .scalar → store setting current field event.text = .ok next →
      Step setting ⟨.value field, before, current, seen⟩ event ⟨.key, before, next, seen⟩

variable {setting : Setting} {state next : State} {event : Event} {rest events : List Event}
  {segments : List Segment}

theorem step_of_feed (accepted : feed setting state event = (next, none)) :
    Step setting state event next := by
  obtain ⟨phase, before, current, seen⟩ := state
  cases phase with
  | start =>
    cases kind : event.kind <;> simp only [feed, kind] at accepted <;> cases accepted
    exact .begin kind
  | stream =>
    cases kind : event.kind <;> simp only [feed, kind] at accepted <;> cases accepted
    · exact .finish kind
    · exact .openDocument kind
  | document =>
    cases kind : event.kind <;> simp only [feed, kind] at accepted
    case documentEnd => exact .closeDocument kind accepted
    case mappingStart =>
      cases accepted
      exact .openMapping kind
    all_goals cases accepted
  | key =>
    cases kind : event.kind <;> simp only [feed, kind] at accepted
    case scalar =>
      split at accepted
      · cases accepted
      rename_i field found
      split at accepted
      · cases accepted
      rename_i fresh
      cases accepted
      exact .key kind (Field.ofName?_eq_some.mp found) fresh
    case mappingEnd =>
      cases accepted
      exact .closeMapping kind
    all_goals cases accepted
  | value field =>
    cases kind : event.kind <;> simp only [feed, kind] at accepted
    case scalar =>
      split at accepted <;> cases accepted
      rename_i stored
      exact .value kind stored
    all_goals cases accepted
  | stop =>
    cases kind : event.kind <;> simp only [feed, kind] at accepted <;> cases accepted

theorem Step.feed (step : Step setting state event next) :
    feed setting state event = (next, none) := by
  cases step with
  | closeDocument kind closed => simp only [feed, kind, closed]
  | key kind named fresh =>
    simp only [feed, kind, Field.ofName?_eq_some.mpr named, fresh, ↓reduceIte]
  | value kind stored => simp only [feed, kind, stored]
  | _ kind => simp only [feed, kind]

theorem feed_eq_ok : feed setting state event = (next, none) ↔ Step setting state event next :=
  ⟨step_of_feed, Step.feed⟩

theorem Tidy.step (tidy : Tidy state.current) (step : Step setting state event next) :
    Tidy next.current := by
  cases step with
  | openDocument kind => exact Tidy.empty
  | closeDocument kind closed =>
    obtain ⟨segment, first, same, complete, grown⟩ := (close_eq_ok tidy).mp closed
    rw [grown]
    change Tidy segment
    rw [same]
    exact tidy.counted segment.count
  | value kind stored => exact tidy.store stored
  | _ => exact tidy

/-- What the grammar leaves to be read where a reader stands. -/
def Rest (setting : Setting) (phase : Phase) (current : Segment) (seen : List Field)
    (events : List Event) (segments : List Segment) : Prop :=
  match phase with
  | .start => Stream setting events segments
  | .stream => StreamRest setting events segments
  | .document => DocumentRest setting (Finishes setting current seen) events segments
  | .key => KeyRest setting (Finishes setting current seen) events segments
  | .value field =>
    ValueRest setting (fun text entries segment =>
      ∃ next, store setting current field text = .ok next ∧
        Finishes setting next seen entries segment) events segments
  | .stop => segments = []

/-- Whether the grammar leaves events that add up to some segments. -/
def Continues (setting : Setting) (state : State) (events : List Event)
    (segments : List Segment) : Prop :=
  ∃ added, segments = state.segments.toList ++ added ∧
    Rest setting state.phase state.current state.seen events added

theorem not_continues_nil (going : state.phase ≠ .stop) :
    ¬ Continues setting state [] segments := by
  obtain ⟨phase, before, current, seen⟩ := state
  intro ⟨added, _, stands⟩
  cases phase <;>
    simp_all [Rest, Stream, StreamRest, DocumentRest, KeyRest, ValueRest]

/-- An event that can stand where a reader is gets accepted, and the grammar goes on from there. -/
theorem exists_step_of_continues (going : state.phase ≠ .stop) (tidy : Tidy state.current)
    (continues : Continues setting state (event :: rest) segments) :
    ∃ next, Step setting state event next ∧ Continues setting next rest segments := by
  obtain ⟨phase, before, current, seen⟩ := state
  obtain ⟨added, same, stands⟩ := continues
  cases phase with
  | start =>
    obtain ⟨kind, follows⟩ := stream_cons_iff.mp stands
    exact ⟨_, .begin kind, added, same, follows⟩
  | stream =>
    rcases streamRest_cons_iff.mp stands with ⟨kind, none⟩ | ⟨kind, follows⟩
    · exact ⟨_, .finish kind, added, same, none⟩
    · rw [← finishes_start] at follows
      exact ⟨_, .openDocument kind, added, same, follows⟩
  | document =>
    rcases documentRest_cons_iff.mp stands with ⟨kind, follows⟩ |
      ⟨kind, segment, further, finishes, more, follows⟩
    · exact ⟨_, .openMapping kind, added, same, follows⟩
    · obtain ⟨first, whole, complete⟩ := finishes_nil.mp finishes
      -- The document's own segment stands in front of those that follow.
      refine ⟨_, .closeDocument kind
        ((close_eq_ok tidy).mpr ⟨segment, first, whole, complete, rfl⟩), further, ?_, follows⟩
      rw [same, more, Array.toList_push, List.append_assoc, List.singleton_append]
  | key =>
    rcases keyRest_cons_iff.mp stands with ⟨kind, follows⟩ | ⟨kind, follows⟩
    · exact ⟨_, .closeMapping kind, added, same, follows⟩
    · simp only [finishes_cons, valueRest_exists, valueRest_and] at follows
      obtain ⟨field, named, fresh, next, follows⟩ := follows
      refine ⟨_, .key kind named fresh, added, same, ?_⟩
      simp only [Rest, valueRest_exists]
      exact ⟨next, follows⟩
  | value field =>
    simp only [Rest, valueRest_cons_iff, keyRest_exists, keyRest_and] at stands
    obtain ⟨kind, next, stored, follows⟩ := stands
    exact ⟨_, .value kind stored, added, same, follows⟩
  | stop => exact absurd rfl going

/-- An accepted event can stand in front of what the grammar leaves behind it. -/
theorem Step.continues (step : Step setting state event next) (tidy : Tidy state.current)
    (continues : Continues setting next rest segments) :
    Continues setting state (event :: rest) segments := by
  obtain ⟨added, same, follows⟩ := continues
  cases step with
  | begin kind => exact ⟨added, same, stream_cons_iff.mpr ⟨kind, follows⟩⟩
  | finish kind => exact ⟨added, same, streamRest_cons_iff.mpr (Or.inl ⟨kind, follows⟩)⟩
  | openDocument kind =>
    rw [Rest, finishes_start] at follows
    exact ⟨added, same, streamRest_cons_iff.mpr (Or.inr ⟨kind, follows⟩)⟩
  | closeDocument kind closed =>
    obtain ⟨segment, first, whole, complete, grown⟩ := (close_eq_ok tidy).mp closed
    subst grown
    refine ⟨segment :: added, ?_, documentRest_cons_iff.mpr (Or.inr ⟨kind, segment, added,
      finishes_nil.mpr ⟨first, whole, complete⟩, rfl, follows⟩)⟩
    rw [same, Array.toList_push, List.append_assoc, List.singleton_append]
  | openMapping kind => exact ⟨added, same, documentRest_cons_iff.mpr (Or.inl ⟨kind, follows⟩)⟩
  | closeMapping kind => exact ⟨added, same, keyRest_cons_iff.mpr (Or.inl ⟨kind, follows⟩)⟩
  | key kind named fresh =>
    refine ⟨added, same, keyRest_cons_iff.mpr (Or.inr ⟨kind, ?_⟩)⟩
    simp only [finishes_cons, valueRest_exists, valueRest_and]
    simp only [Rest, valueRest_exists] at follows
    exact ⟨_, named, fresh, follows⟩
  | value kind stored =>
    refine ⟨added, same, ?_⟩
    simp only [Rest, valueRest_cons_iff, keyRest_exists, keyRest_and]
    exact ⟨kind, _, stored, follows⟩

theorem continues_cons_iff (going : state.phase ≠ .stop) (tidy : Tidy state.current) :
    Continues setting state (event :: rest) segments ↔
      ∃ next, Step setting state event next ∧ Continues setting next rest segments := by
  constructor
  · exact exists_step_of_continues going tidy
  · intro ⟨next, step, continues⟩
    exact step.continues tidy continues

theorem done_eq_false : State.done state = false ↔ state.phase ≠ .stop := by
  simp [State.done]

/-- From any point of a reading on, it succeeds with what the grammar leaves. -/
theorem consume_iff_continues (going : state.phase ≠ .stop) (tidy : Tidy state.current) :
    (∃ final, consume setting state events = (final, none) ∧ final.segments.toList = segments) ↔
      Continues setting state events segments := by
  refine Document.consume_iff (Tidy ·.current) (·.segments.toList = segments)
    (Continues setting · · segments) ?_ ?_ ?_ ?_ tidy (done_eq_false.mpr going)
  · intro state event next tidy accepted
    exact tidy.step (feed_eq_ok.mp accepted)
  · intro state events stopped
    have stop : state.phase = .stop := by simpa [State.done] using stopped
    simp [Continues, Rest, stop, eq_comm]
  · intro state further
    exact not_continues_nil (done_eq_false.mp further)
  · intro state event rest tidy further
    rw [continues_cons_iff (done_eq_false.mp further) tidy]
    simp only [feed_eq_ok]

/-- Reading events succeeds with some segments just if the events are a stream of documents that
describe these segments. -/
theorem consume_iff_stream (setting : Setting) (events : List Event) (segments : List Segment) :
    (∃ state, consume setting .initial events = (state, none) ∧
        state.segments.toList = segments) ↔
      Stream setting events segments := by
  rw [consume_iff_continues Phase.noConfusion Tidy.empty]
  constructor
  · intro ⟨added, same, stream⟩
    rw [same]
    exact stream
  · intro stream
    exact ⟨segments, rfl, stream⟩

/-- Data are not blank, but have no UTF-8 form: reading ends with an error that is none of memory
maps. With other data it succeeds. -/
theorem consume_surrogate :
    let scalars (texts : List Text.CodeText) : List Event :=
      texts.map fun text => ⟨.scalar, some text, none⟩
    let plain (kind : EventKind) : Event := ⟨kind, none, none⟩
    let outcome (data : Text.CodeText) : Option MemoryMapError :=
      (consume ⟨none, fun _ => .ok 0⟩ .initial
        ([plain .streamStart, plain .documentStart, plain .mappingStart] ++
          scalars ["start", "0", "data", data] ++
          [plain .mappingEnd, plain .documentEnd, plain .streamEnd])).2
    let data : Text.CodeText := [.surrogate 0]
    data ≠ [] ∧ outcome data = some (.defect .unencodable) ∧ outcome "abc" = none := by
  decide +kernel

end MemoryBoard.MemoryMap
