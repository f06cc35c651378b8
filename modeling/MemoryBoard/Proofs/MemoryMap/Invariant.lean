import MemoryBoard.Proofs.MemoryMap.Acceptance

set_option autoImplicit false

namespace MemoryBoard.MemoryMap

open Document Yaml

/-- An event with the sizes that files have at that time. -/
structure Occasion where
  size : Path → Except FileError Nat
  event : Event

def Occasion.setting (directory : Option Path) (occasion : Occasion) : Setting :=
  ⟨directory, occasion.size⟩

def feedAt (directory : Option Path) (state : State) (occasion : Occasion) :
    State × Option MemoryMapError :=
  feed (occasion.setting directory) state occasion.event

/-- A complete segment with values in their bounds, and the file where its name leads. -/
structure Sound (setting : Setting) (segment : Segment) (first : Int) : Prop
    extends Complete setting segment first where
  first_bounds : 0 ≤ first ∧ first ≤ 0xffff
  last_le : ∀ last, segment.last = some last → last ≤ 0xffff
  fill_bounds : ∀ fill, segment.fill = some fill → 0 ≤ fill ∧ fill ≤ 0xff
  located : segment.path = segment.file.map setting.resolve

/-- Whether an event is accepted as the beginning of a document. -/
def Opens (directory : Option Path) (state : State) (occasion : Occasion) : Prop :=
  occasion.event.kind = .documentStart ∧ (feedAt directory state occasion).2 = none

/-- Whether an event is accepted as the end of a document. -/
def Closes (directory : Option Path) (state : State) (occasion : Occasion) : Prop :=
  occasion.event.kind = .documentEnd ∧ (feedAt directory state occasion).2 = none

/-- Whether none of some events is accepted as the beginning of a document. -/
def OpensNone (directory : Option Path) : State → List Occasion → Prop
  | _, [] => True
  | state, occasion :: rest =>
    ¬ Opens directory state occasion ∧ OpensNone directory (feedAt directory state occasion).1 rest

/-- What ties the parts of a state together. -/
structure Consistent (directory : Option Path) (state : State) : Prop where
  /-- Fields that were not seen are absent, and all others have what some text says. -/
  fields : ∀ field : Field, field.Absent state.current ∨
    field ∈ state.seen ∧ ∃ size text, field.Reads ⟨directory, size⟩ text state.current
  /-- The field whose value is to come was seen, but is still absent. -/
  pending : ∀ field, state.phase = .value field → field ∈ state.seen ∧ field.Absent state.current
  /-- Between documents the current segment is the one added last. -/
  added : state.phase ∈ [.start, .stream, .stop] →
    ∀ segment, state.segments.back? = some segment → segment = state.current

variable {directory : Option Path} {setting : Setting} {state next : State} {event : Event}
  {error : MemoryMapError}

/-- A document that is rejected at its end has its segment left as it is, but for the count where
that is too big. -/
theorem close_rejected (rejected : close setting state = (next, some error)) :
    next = state ∨ ∃ first count, error = .tooBig first ∧
      next = { state with current := state.current.counted count } := by
  unfold close at rejected
  split at rejected
  · cases rejected
    exact Or.inl rfl
  rename_i first checked
  split at rejected
  · cases rejected
    exact Or.inl rfl
  rename_i count extended
  simp only at rejected
  split at rejected
  · cases rejected
  · cases rejected
    exact Or.inr ⟨first, count, rfl, rfl⟩

/-- A rejected event changes nothing else. -/
theorem feed_rejected (rejected : feed setting state event = (next, some error)) :
    next = state ∨ state.phase = .document ∧ event.kind = .documentEnd ∧
      ∃ first count, error = .tooBig first ∧
        next = { state with current := state.current.counted count } := by
  obtain ⟨phase, before, current, seen⟩ := state
  cases phase with
  | document =>
    cases kind : event.kind <;> simp only [feed, kind] at rejected
    case documentEnd =>
      rcases close_rejected rejected with same | counted
      · exact Or.inl same
      · exact Or.inr ⟨rfl, rfl, counted⟩
    case mappingStart => cases rejected
    all_goals
      cases rejected
      exact Or.inl rfl
  | key =>
    cases kind : event.kind <;> simp only [feed, kind] at rejected
    case scalar =>
      split at rejected
      · cases rejected
        exact Or.inl rfl
      split at rejected <;> cases rejected
      exact Or.inl rfl
    case mappingEnd => cases rejected
    all_goals
      cases rejected
      exact Or.inl rfl
  | value field =>
    cases kind : event.kind <;> simp only [feed, kind] at rejected
    case scalar =>
      split at rejected <;> cases rejected
      exact Or.inl rfl
    all_goals
      cases rejected
      exact Or.inl rfl
  | _ =>
    cases kind : event.kind <;> simp only [feed, kind] at rejected <;> cases rejected <;>
      exact Or.inl rfl

theorem Field.Absent.same {first second : Segment} {field : Field} (absent : field.Absent first)
    (same : field.Same first second) : field.Absent second :=
  Field.absent_iff.mpr ((Field.absent_iff.mp absent).trans same)

theorem Consistent.initial : Consistent directory .initial where
  fields field := Or.inl (Field.absent_iff.mpr (Field.Same.refl _ field))
  pending field waits := by cases waits
  added _ segment impossible := by cases impossible

theorem Consistent.tidy (consistent : Consistent directory state) : Tidy state.current := by
  constructor
  · rcases consistent.fields .data with absent | ⟨_, size, text, given, bytes, form, held⟩
    · intro empty
      rw [show state.current.data = none from absent] at empty
      cases empty
    · rw [held, ne_eq, Option.some.injEq]
      exact utf8?_ne_nil given form
  · rcases consistent.fields .file with ⟨none, nowhere⟩ | ⟨_, size, text, _, held, located⟩
    · rw [none, nowhere]
      rfl
    · rw [held, located]
      rfl

theorem Consistent.fields_same {segment : Segment} {field : Field}
    (consistent : Consistent directory state) (same : field.Same state.current segment) :
    field.Absent segment ∨
      field ∈ state.seen ∧ ∃ size text, field.Reads ⟨directory, size⟩ text segment := by
  rcases consistent.fields field with absent | ⟨seen, size, text, reads⟩
  · exact Or.inl (absent.same same)
  · exact Or.inr ⟨seen, size, text, reads.same same⟩

theorem Consistent.accepted {size : Path → Except FileError Nat}
    (consistent : Consistent directory state) (step : Step ⟨directory, size⟩ state event next) :
    Consistent directory next := by
  cases step with
  | begin kind => exact ⟨consistent.fields, nofun, fun _ => consistent.added (by simp)⟩
  | finish kind => exact ⟨consistent.fields, nofun, fun _ => consistent.added (by simp)⟩
  | openDocument kind =>
    refine ⟨fun field => ?_, nofun, fun outside => absurd outside (by simp)⟩
    exact Or.inl (Field.absent_iff.mpr (Field.Same.refl _ field))
  | closeDocument kind closed =>
    obtain ⟨segment, first, same, complete, grown⟩ := (close_eq_ok consistent.tidy).mp closed
    rw [grown]
    refine ⟨fun field => consistent.fields_same ?_, nofun, fun _ last latest => ?_⟩
    · rw [same]
      exact Field.same_counted _ _ field
    · rw [Array.back?_push] at latest
      exact (Option.some.inj latest).symm
  | openMapping kind => exact ⟨consistent.fields, nofun, fun outside => absurd outside (by simp)⟩
  | closeMapping kind => exact ⟨consistent.fields, nofun, fun outside => absurd outside (by simp)⟩
  | @key _ current seen _ field kind named fresh =>
    refine ⟨fun other => ?_, fun other waits => ?_, fun outside => absurd outside (by simp)⟩
    · rcases consistent.fields other with absent | ⟨member, reads⟩
      · exact Or.inl absent
      · exact Or.inr ⟨List.mem_cons_of_mem field member, reads⟩
    · cases waits
      refine ⟨List.mem_cons_self, ?_⟩
      rcases consistent.fields field with absent | ⟨member, _⟩
      · exact absent
      · exact absurd member fresh
  | @value _ current _ seen _ field kind stored =>
    obtain ⟨source, reads, same⟩ := store_eq_ok.mp stored
    refine ⟨fun other => ?_, nofun, fun outside => absurd outside (by simp)⟩
    rw [same]
    by_cases here : other = field
    · subst here
      exact Or.inr ⟨(consistent.pending other rfl).1, size, event.text,
        reads.same (Field.same_put source current other)⟩
    · exact consistent.fields_same (Field.same_put_other source current here)

theorem Consistent.rejected (consistent : Consistent directory state)
    (rejected : feed setting state event = (next, some error)) : Consistent directory next := by
  rcases feed_rejected rejected with same | ⟨phase, _, first, count, _, same⟩
  · rw [same]
    exact consistent
  · rw [same]
    refine ⟨fun field => consistent.fields_same (Field.same_counted _ _ field), ?_, ?_⟩
    · intro field waits
      rw [show state.phase = .value field from waits] at phase
      cases phase
    · intro outside
      rw [show state.phase = .document from phase] at outside
      exact absurd outside (by simp)

theorem Consistent.take (consistent : Consistent directory state) (occasion : Occasion) :
    Consistent directory (feedAt directory state occasion).1 := by
  rcases fed : feedAt directory state occasion with ⟨next, outcome⟩
  cases outcome with
  | none => exact consistent.accepted (feed_eq_ok.mp fed)
  | some error => exact consistent.rejected fed

theorem Consistent.takeAll (consistent : Consistent directory state) (history : List Occasion) :
    Consistent directory (takeAll (feedAt directory) state history) :=
  takeAll_invariant (fun _ occasion holds => holds.take occasion) consistent

/-- A number that a text denotes lies in the bounds of its field. -/
theorem bounds_of_reads {σ : Type} {member : Prop} {maximum : Nat} {held : Option Int}
    {number : Int}
    (either : held = none ∨ member ∧ ∃ (_ : σ) (text : Text.CodeText) (value : Nat),
      Scan.Denotes maximum text value ∧ held = some (value : Int))
    (given : held = some number) : 0 ≤ number ∧ number ≤ maximum := by
  rw [given] at either
  rcases either with absent | ⟨_, _, text, value, ⟨_, _, _, _, _, _, bound⟩, same⟩
  · cases absent
  · cases same
    omega

theorem Consistent.sound {segment : Segment} {first : Int} {occasion : Occasion}
    (consistent : Consistent directory state)
    (whole : segment = state.current.counted segment.count)
    (complete : Complete (occasion.setting directory) segment first) :
    Sound (occasion.setting directory) segment first := by
  have fields (field : Field) := consistent.fields_same
    (show field.Same state.current segment by rw [whole]; exact Field.same_counted _ _ field)
  refine ⟨complete, bounds_of_reads (fields .start) complete.start,
    fun last given => (bounds_of_reads (fields .last) given).2,
    fun fill given => bounds_of_reads (fields .fill) given, ?_⟩
  rcases fields .file with ⟨none, nowhere⟩ | ⟨_, _, _, _, held, located⟩
  · rw [none, nowhere]
    rfl
  · rw [held, located]
    rfl

/-- Only the end of a document adds a segment, and just the current one. -/
theorem Consistent.take_segments (consistent : Consistent directory state) (occasion : Occasion) :
    Closes directory state occasion ∧
        (feedAt directory state occasion).1.segments =
          state.segments.push (feedAt directory state occasion).1.current ∧
        (∃ first, Sound (occasion.setting directory)
          (feedAt directory state occasion).1.current first) ∨
      ¬ Closes directory state occasion ∧
        (feedAt directory state occasion).1.segments = state.segments := by
  rcases fed : feedAt directory state occasion with ⟨next, outcome⟩
  unfold Closes
  rw [fed]
  cases outcome with
  | some error =>
    refine Or.inr ⟨by simp, ?_⟩
    rcases feed_rejected fed with same | ⟨_, _, _, _, _, same⟩ <;> rw [same]
  | none =>
    cases step_of_feed fed with
    | closeDocument kind closed =>
      obtain ⟨segment, first, whole, complete, grown⟩ := (close_eq_ok consistent.tidy).mp closed
      rw [grown]
      exact Or.inl ⟨⟨kind, rfl⟩, rfl, first, consistent.sound whole complete⟩
    | begin kind => exact Or.inr ⟨by simp [kind], rfl⟩
    | finish kind => exact Or.inr ⟨by simp [kind], rfl⟩
    | openDocument kind => exact Or.inr ⟨by simp [kind], rfl⟩
    | openMapping kind => exact Or.inr ⟨by simp [kind], rfl⟩
    | closeMapping kind => exact Or.inr ⟨by simp [kind], rfl⟩
    | key kind named fresh => exact Or.inr ⟨by simp [kind], rfl⟩
    | value kind stored => exact Or.inr ⟨by simp [kind], rfl⟩

theorem Consistent.takeAll_segments (consistent : Consistent directory state)
    (history : List Occasion) :
    ∃ added : List Segment,
      (Document.takeAll (feedAt directory) state history).segments.toList =
        state.segments.toList ++ added ∧
      ∀ segment ∈ added, ∃ occasion ∈ history, occasion.event.kind = .documentEnd ∧
        ∃ first, Sound (occasion.setting directory) segment first := by
  induction history generalizing state with
  | nil => exact ⟨[], by simp, by simp⟩
  | cons occasion rest ih =>
    obtain ⟨added, same, later⟩ := ih (consistent.take occasion)
    have onward : ∀ segment ∈ added, ∃ other ∈ occasion :: rest,
        other.event.kind = .documentEnd ∧
          ∃ first, Sound (other.setting directory) segment first := by
      intro segment member
      obtain ⟨other, among, found⟩ := later segment member
      exact ⟨other, List.mem_cons_of_mem _ among, found⟩
    rw [takeAll_cons, same]
    rcases consistent.take_segments occasion with ⟨closes, grown, sound⟩ | ⟨_, kept⟩
    · refine ⟨(feedAt directory state occasion).1.current :: added, ?_, ?_⟩
      · rw [grown, Array.toList_push, List.append_assoc, List.singleton_append]
      · rw [List.forall_mem_cons]
        exact ⟨⟨occasion, List.mem_cons_self, closes.1, sound⟩, onward⟩
    · exact ⟨added, by rw [kept], onward⟩

/-- A field with a value keeps it inside of a document. -/
theorem Consistent.take_same {field : Field} (consistent : Consistent directory state)
    (set : ¬ field.Absent state.current) {occasion : Occasion}
    (inside : ¬ Opens directory state occasion) :
    field.Same state.current (feedAt directory state occasion).1.current := by
  rcases fed : feedAt directory state occasion with ⟨next, outcome⟩
  cases outcome with
  | some error =>
    rcases feed_rejected fed with same | ⟨_, _, first, count, _, same⟩
    · rw [same]
      exact Field.Same.refl _ field
    · rw [same]
      exact Field.same_counted _ _ field
  | none =>
    cases step_of_feed fed with
    | openDocument kind =>
      unfold Opens at inside
      rw [fed] at inside
      exact absurd ⟨kind, rfl⟩ inside
    | closeDocument kind closed =>
      obtain ⟨segment, first, whole, complete, grown⟩ := (close_eq_ok consistent.tidy).mp closed
      rw [grown, whole]
      exact Field.same_counted _ _ field
    | @value _ current _ _ _ waiting kind stored =>
      obtain ⟨source, reads, same⟩ := store_eq_ok.mp stored
      have apart : field ≠ waiting := by
        intro here
        rw [here] at set
        exact set (consistent.pending waiting rfl).2
      rw [same]
      exact Field.same_put_other source current apart
    | _ => exact Field.Same.refl _ field

theorem Consistent.takeAll_same {field : Field} (consistent : Consistent directory state)
    (set : ¬ field.Absent state.current) {further : List Occasion}
    (inside : OpensNone directory state further) :
    field.Same state.current (Document.takeAll (feedAt directory) state further).current := by
  induction further generalizing state with
  | nil => exact Field.Same.refl _ field
  | cons occasion rest ih =>
    obtain ⟨here, later⟩ := inside
    have same := consistent.take_same set here
    have still : ¬ field.Absent (feedAt directory state occasion).1.current :=
      fun absent => set (absent.same same.symm)
    exact same.trans (ih (consistent.take occasion) still later)

/-- In every state that a reader can come to, past any rejected events, the segments added so far
are sound, only the end of a document adds one more, and no field is given a second value before the
next document begins. -/
theorem reachable_sound (directory : Option Path) (history : List Occasion) :
    let state := Document.takeAll (feedAt directory) .initial history
    (∀ segment ∈ state.segments, ∃ occasion ∈ history, occasion.event.kind = .documentEnd ∧
      ∃ first, Sound (occasion.setting directory) segment first) ∧
    (∀ occasion, let next := (feedAt directory state occasion).1
      Closes directory state occasion ∧ next.segments = state.segments.push next.current ∧
          (∃ first, Sound (occasion.setting directory) next.current first) ∨
        ¬ Closes directory state occasion ∧ next.segments = state.segments) ∧
    (∀ further index, index < state.segments.size →
      (Document.takeAll (feedAt directory) state further).segments[index]? =
        state.segments[index]?) ∧
    (state.phase ∈ [.start, .stream, .stop] →
      ∀ segment, state.segments.back? = some segment → segment = state.current) ∧
    (∀ field : Field, field.Absent state.current ∨ field ∈ state.seen) ∧
    (∀ field : Field, state.phase = .value field →
      field ∈ state.seen ∧ field.Absent state.current) ∧
    (∀ (field : Field) further, ¬ field.Absent state.current →
      OpensNone directory state further →
      field.Same state.current (Document.takeAll (feedAt directory) state further).current) := by
  intro state
  have consistent : Consistent directory state := Consistent.initial.takeAll history
  refine ⟨?_, consistent.take_segments, ?_, consistent.added, ?_, consistent.pending, ?_⟩
  · intro segment member
    obtain ⟨added, same, sound⟩ := Consistent.initial.takeAll_segments history
    rw [← Array.mem_toList_iff, same] at member
    exact sound segment member
  · intro further index inside
    obtain ⟨added, same, _⟩ := consistent.takeAll_segments further
    rw [← Array.getElem?_toList, same, List.getElem?_append_left (by simpa using inside),
      Array.getElem?_toList]
  · intro field
    rcases consistent.fields field with absent | ⟨seen, _⟩
    · exact Or.inl absent
    · exact Or.inr seen
  · intro field further set inside
    exact consistent.takeAll_same set inside

-- A rejected value can be given once more, and so can the end of a document whose file was too big.
example :
    let sized (size : Nat) (kind : EventKind) (text : String) : Occasion :=
      ⟨fun _ => .ok size, ⟨kind, some text, none⟩⟩
    let final := Document.takeAll (feedAt none) .initial [sized 0 .streamStart "",
      sized 0 .documentStart "", sized 0 .mappingStart "", sized 0 .scalar "start",
      sized 0 .scalar "0x18000", sized 0 .scalar "0x1800", sized 0 .scalar "file",
      sized 0 .scalar "rom.bin", sized 0 .mappingEnd "", sized 0x10000 .documentEnd "",
      sized 0x800 .documentEnd ""]
    final.segments.map (fun segment => (segment.start, segment.count)) =
      #[(some 0x1800, 0x800)] := by
  decide +kernel

end MemoryBoard.MemoryMap
