import MemoryBoard.Proofs.MemoryMap.Defect

set_option autoImplicit false

/- Documents with the same entries come to the same, in whatever order the entries stand and however
they are split into mappings, unless a value among them is met with a defect. Then no order makes a
segment of them, but an error in another entry can come first or not. -/
namespace MemoryBoard.MemoryMap

open Yaml

/-- The events of one document, and the entries of all its mappings. -/
def IsDocument (events : List Event) (entries : List Entry) : Prop :=
  ∃ opening inner closing, events = opening :: (inner ++ [closing]) ∧
    opening.kind = .documentStart ∧ Mappings inner entries ∧ closing.kind = .documentEnd

/-- Reading takes all of some events and goes on from a state with whatever follows. -/
def Passes (setting : Setting) (state : State) (events : List Event) (next : State) : Prop :=
  ∀ rest, consume setting state (events ++ rest) = consume setting next rest

/-- Reading fails within some events, whatever follows, and adds no segment. -/
def Fails (setting : Setting) (state : State) (events : List Event) (error : MemoryMapError) :
    Prop :=
  ∃ next, next.segments = state.segments ∧
    ∀ rest, consume setting state (events ++ rest) = (next, some error)

/-- What reading a document can come to. -/
inductive Outcome where
  | added (segment : Segment)
  /-- One of the events is rejected with an error that memory maps have. -/
  | rejected
  /-- One of the events is met with a defect. -/
  | defect (cause : Defect)

/-- Whether some events come to an outcome. -/
def Outcome.Ends (setting : Setting) (state : State) (events : List Event) : Outcome → Prop
  | added segment =>
    ∃ seen, Passes setting state events ⟨.stream, state.segments.push segment, segment, seen⟩
  | rejected => ∃ error : MemoryMapError, error.IsOwn ∧ Fails setting state events error
  | defect cause => Fails setting state events (.defect cause)

/-- Whether the value of an entry is met with a defect where it is due. -/
def Entry.Stops (entry : Entry) (cause : Defect) : Prop :=
  ∃ field : Field, field.key = entry.1 ∧ field.Stops entry.2 cause

/-- Whether an outcome can be that of entries that cannot all be stored. -/
def Outcome.Refuses (entries : List Entry) : Outcome → Prop
  | added _ => False
  | rejected => True
  | defect cause => ∃ entry ∈ entries, entry.Stops cause

/-- Whether an error can be that of entries that cannot all be stored. -/
def Refusal (entries : List Entry) (error : MemoryMapError) : Prop :=
  ∀ cause, error = .defect cause → ∃ entry ∈ entries, entry.Stops cause

variable {setting : Setting} {state middle next : State} {event : Event}
  {events more : List Event} {entries others : List Entry} {current final segment : Segment}
  {seen all : List Field} {error : MemoryMapError}

theorem Passes.trans (first : Passes setting state events middle)
    (second : Passes setting middle more next) : Passes setting state (events ++ more) next := by
  intro rest
  rw [List.append_assoc, first, second]

theorem Fails.append (fails : Fails setting state events error) (more : List Event) :
    Fails setting state (events ++ more) error := by
  obtain ⟨next, kept, failed⟩ := fails
  refine ⟨next, kept, fun rest => ?_⟩
  rw [List.append_assoc, failed]

theorem Passes.fails (passes : Passes setting state events middle)
    (kept : middle.segments = state.segments) (fails : Fails setting middle more error) :
    Fails setting state (events ++ more) error := by
  obtain ⟨next, same, failed⟩ := fails
  refine ⟨next, same.trans kept, fun rest => ?_⟩
  rw [List.append_assoc, passes, failed]

theorem Passes.ends (passes : Passes setting state events middle)
    (kept : middle.segments = state.segments) {outcome : Outcome}
    (ends : outcome.Ends setting middle more) : outcome.Ends setting state (events ++ more) := by
  cases outcome with
  | added segment =>
    obtain ⟨seen, onward⟩ := ends
    rw [kept] at onward
    exact ⟨seen, passes.trans onward⟩
  | rejected =>
    obtain ⟨error, own, fails⟩ := ends
    exact ⟨error, own, passes.fails kept fails⟩
  | defect cause => exact passes.fails kept ends

theorem Step.passes (step : Step setting state event next) (going : next.phase ≠ .stop) :
    Passes setting state [event] next := by
  intro rest
  simp only [consume, List.singleton_append, Document.consume, step.feed, done_eq_false.mpr going,
    Bool.false_eq_true, ↓reduceIte]

theorem fails_of_feed (rejected : feed setting state event = (next, some error)) :
    Fails setting state [event] error := by
  have kept : next.segments = state.segments := by
    rcases feed_rejected rejected with same | ⟨_, _, _, _, _, same⟩ <;> rw [same]
  refine ⟨next, kept, fun rest => ?_⟩
  simp only [consume, List.singleton_append, Document.consume, rejected]

theorem Refusal.of_own (own : error.IsOwn) : Refusal entries error :=
  fun cause same => absurd same (own cause)

theorem Refusal.mono (refusal : Refusal entries error) (within : entries ⊆ others) :
    Refusal others error := by
  intro cause same
  obtain ⟨entry, member, stops⟩ := refusal cause same
  exact ⟨entry, within member, stops⟩

theorem Refusal.ends (refusal : Refusal entries error) (fails : Fails setting state events error) :
    ∃ outcome : Outcome, outcome.Refuses entries ∧ outcome.Ends setting state events := by
  by_cases foreign : ∃ cause, error = .defect cause
  · obtain ⟨cause, rfl⟩ := foreign
    exact ⟨.defect cause, refusal cause rfl, fails⟩
  · exact ⟨.rejected, trivial, error, fun cause same => foreign ⟨cause, same⟩, fails⟩

/-- Where no value is met with a defect there are rejections only. -/
theorem Outcome.Refuses.eq_rejected {outcome : Outcome} (refuses : outcome.Refuses entries)
    (harmless : ∀ entry ∈ entries, ∀ cause, ¬ entry.Stops cause) : outcome = .rejected := by
  cases outcome with
  | added segment => exact refuses.elim
  | rejected => rfl
  | defect cause =>
    obtain ⟨entry, member, stops⟩ := refuses
    exact absurd stops (harmless entry member cause)

/-- Events come to one outcome only. -/
theorem Outcome.Ends.unique {first second : Outcome} (one : first.Ends setting state events)
    (other : second.Ends setting state events) : first = second := by
  -- A stream that ends right behind the events tells acceptance from failure.
  have apart {segment : Segment} {seen : List Field} {error : MemoryMapError}
      (passes : Passes setting state events
        ⟨.stream, state.segments.push segment, segment, seen⟩) :
      ¬ Fails setting state events error := by
    intro ⟨next, _, failed⟩
    have ended := (passes [⟨.streamEnd, none, none⟩]).symm.trans (failed _)
    cases ended
  have same {error another : MemoryMapError} (fails : Fails setting state events error)
      (also : Fails setting state events another) : error = another := by
    obtain ⟨_, _, failed⟩ := fails
    obtain ⟨_, _, again⟩ := also
    exact Option.some.inj (Prod.mk.inj ((failed []).symm.trans (again []))).2
  cases first with
  | added segment =>
    obtain ⟨seen, passes⟩ := one
    cases second with
    | added another =>
      obtain ⟨_, onward⟩ := other
      have ended := (passes []).symm.trans (onward [])
      have current := congrArg State.current (Prod.mk.inj ended).1
      exact congrArg Outcome.added current
    | rejected =>
      obtain ⟨_, _, fails⟩ := other
      exact absurd fails (apart passes)
    | defect cause => exact absurd other (apart passes)
  | rejected =>
    obtain ⟨error, own, fails⟩ := one
    cases second with
    | added segment =>
      obtain ⟨_, passes⟩ := other
      exact absurd fails (apart passes)
    | rejected => rfl
    | defect cause => exact absurd (same fails other) (own cause)
  | defect cause =>
    cases second with
    | added segment =>
      obtain ⟨_, passes⟩ := other
      exact absurd one (apart passes)
    | rejected =>
      obtain ⟨error, own, fails⟩ := other
      exact absurd (same fails one) (own cause)
    | defect another =>
      have equal := same one other
      cases equal
      rfl

variable {key value : Event} {field : Field} {before : Array Segment} {stored : Segment}

/-- A key that was not seen, and a value that can be stored. -/
theorem entry_passes (before : Array Segment) (named : key.kind = .scalar)
    (valued : value.kind = .scalar)
    (name : field.key = key.text) (fresh : field ∉ seen)
    (success : store setting current field value.text = .ok stored) :
    Passes setting ⟨.key, before, current, seen⟩ [key, value]
      ⟨.key, before, stored, field :: seen⟩ := by
  have first : Passes setting ⟨.key, before, current, seen⟩ [key]
      ⟨.value field, before, current, field :: seen⟩ :=
    Step.passes (.key named name fresh) nofun
  have second : Passes setting ⟨.value field, before, current, field :: seen⟩ [value]
      ⟨.key, before, stored, field :: seen⟩ :=
    Step.passes (.value valued success) nofun
  exact first.trans second

/-- Any other key is rejected, or its value is. -/
theorem entry_fails (before : Array Segment) (named : key.kind = .scalar)
    (valued : value.kind = .scalar)
    (stuck : ∀ field : Field, field.key = key.text → field ∉ seen →
      ∀ stored, store setting current field value.text ≠ .ok stored) :
    ∃ error, Refusal [(key.text, value.text)] error ∧
      Fails setting ⟨.key, before, current, seen⟩ [key, value] error := by
  cases known : Field.ofName? key.text with
  | none =>
    have rejected : Fails setting ⟨.key, before, current, seen⟩ [key] (.unknownKey key.text) :=
      fails_of_feed (by simp only [feed, named, known]; rfl)
    have own : (MemoryMapError.unknownKey key.text).IsOwn := fun _ same => by cases same
    exact ⟨_, .of_own own, rejected.append [value]⟩
  | some field =>
    have name := Field.ofName?_eq_some.mp known
    by_cases repeated : field ∈ seen
    · have rejected : Fails setting ⟨.key, before, current, seen⟩ [key] (.repeatedKey field) :=
        fails_of_feed (by simp only [feed, named, known, repeated, ↓reduceIte]; rfl)
      have own : (MemoryMapError.repeatedKey field).IsOwn := fun _ same => by cases same
      exact ⟨_, .of_own own, rejected.append [value]⟩
    · have first : Passes setting ⟨.key, before, current, seen⟩ [key]
          ⟨.value field, before, current, field :: seen⟩ :=
        Step.passes (.key named name repeated) fun same => by cases same
      cases outcome : store setting current field value.text with
      | error error =>
        have rejected : Fails setting ⟨.value field, before, current, field :: seen⟩ [value]
            error := fails_of_feed (by simp only [feed, valued, outcome]; rfl)
        refine ⟨error, ?_, first.fails rfl rejected⟩
        rintro cause rfl
        exact ⟨_, List.mem_singleton_self _, field, name, store_eq_defect.mp outcome⟩
      | ok stored => exact absurd outcome (stuck field name repeated stored)

theorem Gathers.passes (gathers : Gathers setting current seen entries final all)
    (paired : Entries events entries) (before : Array Segment) :
    Passes setting ⟨.key, before, current, seen⟩ events ⟨.key, before, final, all⟩ := by
  induction paired generalizing current seen with
  | nil =>
    cases gathers
    exact fun _ => rfl
  | cons named valued _ ih =>
    obtain ⟨field, name, fresh, next, success, later⟩ := gathers_cons.mp gathers
    exact (entry_passes before named valued name fresh success).trans (ih later)

/-- Entries that cannot all be stored are rejected where the first of them cannot. -/
theorem Entries.fails (paired : Entries events entries)
    (stuck : ∀ final all, ¬ Gathers setting current seen entries final all)
    (before : Array Segment) :
    ∃ error, Refusal entries error ∧
      Fails setting ⟨.key, before, current, seen⟩ events error := by
  induction paired generalizing current seen with
  | nil => exact absurd .nil (stuck current seen)
  | @cons key value events entries named valued _ ih =>
    by_cases taken : ∃ field : Field, field.key = key.text ∧ field ∉ seen ∧
        ∃ stored, store setting current field value.text = .ok stored
    · obtain ⟨field, name, fresh, stored, success⟩ := taken
      have further : ∀ final all,
          ¬ Gathers setting stored (field :: seen) entries final all := by
        intro final all later
        exact stuck final all (gathers_cons.mpr ⟨field, name, fresh, stored, success, later⟩)
      obtain ⟨error, refusal, fails⟩ := ih further
      exact ⟨error, refusal.mono (List.subset_cons_self _ _),
        (entry_passes before named valued name fresh success).fails rfl fails⟩
    · have refused : ∀ field : Field, field.key = key.text → field ∉ seen →
          ∀ stored, store setting current field value.text ≠ .ok stored := by
        intro field name fresh stored success
        exact taken ⟨field, name, fresh, stored, success⟩
      obtain ⟨error, refusal, fails⟩ := entry_fails before named valued refused
      exact ⟨error, refusal.mono (by simp), fails.append events⟩

theorem openMapping_passes (begins : event.kind = .mappingStart) :
    Passes setting ⟨.document, before, current, seen⟩ [event] ⟨.key, before, current, seen⟩ :=
  Step.passes (.openMapping begins) nofun

theorem closeMapping_passes (ends : event.kind = .mappingEnd) :
    Passes setting ⟨.key, before, current, seen⟩ [event] ⟨.document, before, current, seen⟩ :=
  Step.passes (.closeMapping ends) nofun

theorem Gathers.mapping_passes {opening closing : Event}
    (gathers : Gathers setting current seen entries final all)
    (begins : opening.kind = .mappingStart) (paired : Entries events entries)
    (ends : closing.kind = .mappingEnd) :
    Passes setting ⟨.document, before, current, seen⟩ (opening :: (events ++ [closing]))
      ⟨.document, before, final, all⟩ :=
  (openMapping_passes begins).trans
    ((gathers.passes paired before).trans (closeMapping_passes ends))

theorem Gathers.mappings_pass (gathers : Gathers setting current seen entries final all)
    (mappings : Mappings events entries) (before : Array Segment) :
    Passes setting ⟨.document, before, current, seen⟩ events ⟨.document, before, final, all⟩ := by
  induction mappings generalizing current seen with
  | nil =>
    cases gathers
    exact fun _ => rfl
  | cons begins paired ends _ ih =>
    obtain ⟨middle, between, first, second⟩ := gathers_append.mp gathers
    have passes := (first.mapping_passes begins paired ends).trans (ih second)
    simpa using passes

/-- Where the mappings are split plays no part in whether their entries can be stored. -/
theorem Mappings.fails (mappings : Mappings events entries)
    (stuck : ∀ final all, ¬ Gathers setting current seen entries final all)
    (before : Array Segment) :
    ∃ error, Refusal entries error ∧
      Fails setting ⟨.document, before, current, seen⟩ events error := by
  induction mappings generalizing current seen with
  | nil => exact absurd .nil (stuck current seen)
  | @cons opening closing inner events entries further begins paired ends _ ih =>
    by_cases taken : ∃ middle between, Gathers setting current seen entries middle between
    · obtain ⟨middle, between, first⟩ := taken
      have onward : ∀ final all, ¬ Gathers setting middle between further final all := by
        intro final all second
        exact stuck final all (gathers_append.mpr ⟨middle, between, first, second⟩)
      obtain ⟨error, refusal, fails⟩ := ih onward
      have failed := (first.mapping_passes begins paired ends).fails rfl fails
      exact ⟨error, refusal.mono (List.subset_append_right _ _), by simpa using failed⟩
    · have refused : ∀ final all, ¬ Gathers setting current seen entries final all :=
        fun final all first => taken ⟨final, all, first⟩
      obtain ⟨error, refusal, fails⟩ := paired.fails refused before
      have failed := (openMapping_passes begins).fails rfl fails
      exact ⟨error, refusal.mono (List.subset_append_left _ _), failed.append (closing :: events)⟩

theorem Fills.perm (fills : Fills setting entries segment) (same : entries.Perm others) :
    Fills setting others segment where
  distinct := (same.map Prod.fst).nodup_iff.mp fills.distinct
  known entry member := fills.known entry (same.mem_iff.mpr member)
  given field text member := fills.given field text (same.mem_iff.mpr member)
  absent field missing := fills.absent field fun text member =>
    missing text (same.mem_iff.mp member)

/-- From nothing on, entries can be stored in any order, and give one segment. -/
theorem Gathers.perm (gathers : Gathers setting {} [] entries final all)
    (same : entries.Perm others) : ∃ all, Gathers setting {} [] others final all := by
  have uncounted : final.count = 0 := gathers.fills.2.2.2.2
  have whole : final.counted 0 = final := by
    rw [← uncounted]
    rfl
  have fills : Fills setting entries final := fills_iff_gathers.mpr ⟨all, by rwa [whole]⟩
  have again := fills_iff_gathers.mp (fills.perm same)
  rwa [whole] at again

/-- Whether the end of a document with some segment comes to an outcome. -/
def Outcome.Closes (setting : Setting) (current : Segment) (outcome : Outcome) : Prop :=
  ∀ (event : Event) (before : Array Segment) (seen : List Field), event.kind = .documentEnd →
    outcome.Ends setting ⟨.document, before, current, seen⟩ [event]

theorem fails_of_close (ends : event.kind = .documentEnd)
    (refused : (close setting ⟨.document, before, current, seen⟩).2 = some error) :
    Fails setting ⟨.document, before, current, seen⟩ [event] error := by
  have rejected : feed setting ⟨.document, before, current, seen⟩ event =
      ((close setting ⟨.document, before, current, seen⟩).1, some error) := by
    simp only [feed, ends]
    exact Prod.ext rfl refused
  exact fails_of_feed rejected

/-- The end of a document adds the segment, rejects it or is met with the defect of its file. -/
theorem exists_closes (setting : Setting) (current : Segment) :
    ∃ outcome : Outcome, outcome.Closes setting current ∧ ∀ cause, outcome = .defect cause →
      ∃ path, current.path = some path ∧ setting.size path = .error (.defect cause) := by
  cases checked : check current with
  | error error =>
    refine ⟨.rejected, fun event before seen ends => ?_, nofun⟩
    exact ⟨error, check_isOwn current error checked,
      fails_of_close ends (by simp only [close, checked])⟩
  | ok first =>
    cases extended : extent setting current first with
    | error error =>
      have fails (event : Event) (before : Array Segment) (seen : List Field)
          (ends : event.kind = .documentEnd) :
          Fails setting ⟨.document, before, current, seen⟩ [event] error :=
        fails_of_close ends (by simp only [close, checked, extended])
      by_cases foreign : ∃ cause, error = .defect cause
      · obtain ⟨cause, rfl⟩ := foreign
        refine ⟨.defect cause, fails, fun other same => ?_⟩
        cases same
        exact extent_eq_defect extended
      · have own : error.IsOwn := fun cause same => foreign ⟨cause, same⟩
        exact ⟨.rejected, fun event before seen ends => ⟨error, own, fails event before seen ends⟩,
          nofun⟩
    | ok count =>
      by_cases fit : fits { current with count } first = true
      · refine ⟨.added { current with count }, fun event before seen ends => ⟨seen, ?_⟩, nofun⟩
        refine Step.passes (.closeDocument ends ?_) nofun
        simp only [close, checked, extended, fit, ↓reduceIte]
      · refine ⟨.rejected, fun event before seen ends => ⟨.tooBig first, nofun, ?_⟩, nofun⟩
        exact fails_of_close ends (by simp only [close, checked, extended]; rw [if_neg fit])

/-- The path of a segment is where a file name among its entries leads. -/
theorem Gathers.path (gathers : Gathers setting {} [] entries final all) {path : Path}
    (located : final.path = some path) :
    ∃ text, (Field.file.key, text) ∈ entries ∧ setting.resolve text = path := by
  obtain ⟨_, _, given, others, _⟩ := gathers.fills
  by_cases named : ∃ text, (Field.file.key, text) ∈ entries
  · obtain ⟨text, member⟩ := named
    obtain ⟨_, _, leads⟩ := given .file text member
    exact ⟨text, member, Option.some.inj (leads.symm.trans located)⟩
  · have none : none = final.path := (others .file fun text member => named ⟨text, member⟩).2
    rw [located] at none
    cases none

theorem IsDocument.ends {outcome : Outcome} (document : IsDocument events entries)
    (between : state.phase = .stream) (gathers : Gathers setting {} [] entries final all)
    (closes : outcome.Closes setting final) : outcome.Ends setting state events := by
  obtain ⟨opening, inner, closing, rfl, begins, mappings, ends⟩ := document
  obtain ⟨phase, before, current, seen⟩ := state
  obtain rfl : phase = .stream := between
  have opens : Passes setting ⟨.stream, before, current, seen⟩ [opening]
      ⟨.document, before, {}, []⟩ := Step.passes (.openDocument begins) nofun
  have through := opens.trans (gathers.mappings_pass mappings before)
  exact through.ends rfl (closes closing before _ ends)

theorem IsDocument.refused (document : IsDocument events entries) (between : state.phase = .stream)
    (stuck : ∀ final all, ¬ Gathers setting {} [] entries final all) :
    ∃ outcome : Outcome, outcome.Refuses entries ∧ outcome.Ends setting state events := by
  obtain ⟨opening, inner, closing, rfl, begins, mappings, _⟩ := document
  obtain ⟨phase, before, current, seen⟩ := state
  obtain rfl : phase = .stream := between
  have opens : Passes setting ⟨.stream, before, current, seen⟩ [opening]
      ⟨.document, before, {}, []⟩ := Step.passes (.openDocument begins) nofun
  obtain ⟨error, refusal, fails⟩ := mappings.fails stuck before
  exact refusal.ends ((opens.fails rfl fails).append [closing])

/-- Two documents with the same entries, in any order and in any mappings, add the same segment or
none. If no value among the entries is met with a defect, they come to the same anyway: one segment,
a rejection, or the defect that the path of the file is met with. -/
theorem consume_permuted {first second : List Event} (between : state.phase = .stream)
    (one : IsDocument first entries) (other : IsDocument second others)
    (same : entries.Perm others) :
    (∃ outcome : Outcome, outcome.Ends setting state first) ∧
      (∀ segment, (Outcome.added segment).Ends setting state first ↔
        (Outcome.added segment).Ends setting state second) ∧
      ((∀ entry ∈ entries, ∀ cause, ¬ entry.Stops cause) → ∀ outcome : Outcome,
        outcome.Ends setting state first ↔ outcome.Ends setting state second) ∧
      ∀ cause, (Outcome.defect cause).Ends setting state first →
        (∃ entry ∈ entries, entry.Stops cause) ∨
          ∃ text, (Field.file.key, text) ∈ entries ∧
            setting.size (setting.resolve text) = .error (.defect cause) := by
  -- One outcome of both settles everything about either of them.
  have agree {outcome : Outcome} (ends : outcome.Ends setting state first)
      (also : outcome.Ends setting state second) (another : Outcome) :
      another.Ends setting state first ↔ another.Ends setting state second := by
    constructor
    · intro given
      rwa [given.unique ends]
    · intro given
      rwa [given.unique also]
  by_cases taken : ∃ final all, Gathers setting {} [] entries final all
  · obtain ⟨final, all, gathers⟩ := taken
    obtain ⟨_, again⟩ := gathers.perm same
    obtain ⟨outcome, closes, unmeasured⟩ := exists_closes setting final
    have ends := one.ends between gathers closes
    have also := other.ends between again closes
    refine ⟨⟨outcome, ends⟩, fun _ => agree ends also _, fun _ => agree ends also, ?_⟩
    intro cause met
    obtain ⟨path, located, failed⟩ := unmeasured cause (ends.unique met)
    obtain ⟨text, member, rfl⟩ := gathers.path located
    exact Or.inr ⟨text, member, failed⟩
  · have stuck (final : Segment) (all : List Field) :
        ¬ Gathers setting {} [] entries final all := fun gathers => taken ⟨final, all, gathers⟩
    have stuckToo (final : Segment) (all : List Field) :
        ¬ Gathers setting {} [] others final all := by
      intro gathers
      obtain ⟨all, again⟩ := gathers.perm same.symm
      exact taken ⟨final, all, again⟩
    obtain ⟨outcome, refuses, ends⟩ := one.refused between stuck
    obtain ⟨another, refusesToo, also⟩ := other.refused between stuckToo
    refine ⟨⟨outcome, ends⟩, fun segment => ?_, fun harmless => ?_, fun cause met => ?_⟩
    · constructor
      · intro added
        rw [ends.unique added] at refuses
        exact refuses.elim
      · intro added
        rw [also.unique added] at refusesToo
        exact refusesToo.elim
    · obtain rfl := refuses.eq_rejected harmless
      obtain rfl := refusesToo.eq_rejected fun entry member =>
        harmless entry (same.mem_iff.mpr member)
      exact agree ends also
    · rw [ends.unique met] at refuses
      exact Or.inl refuses

-- A text without a UTF-8 form and a key that there is not: the first of them ends the reading.
example :
    let scalars (texts : List Text.CodeText) : List Event :=
      texts.map fun text => ⟨.scalar, some text, none⟩
    let plain (kind : EventKind) : Event := ⟨kind, none, none⟩
    let outcome (texts : List Text.CodeText) : Option MemoryMapError :=
      (consume ⟨none, fun _ => .ok 0⟩ ⟨.stream, #[], {}, []⟩
        ([plain .documentStart, plain .mappingStart] ++ scalars texts ++
          [plain .mappingEnd, plain .documentEnd])).2
    outcome ["data", [.surrogate 0], "bogus", "1"] = some (.defect .unencodable) ∧
      outcome ["bogus", "1", "data", [.surrogate 0]] = some (.unknownKey "bogus") := by
  decide +kernel

/-- One mapping, and the same entries in another order and in two mappings. -/
theorem consume_permuted_split :
    let scalars (texts : List String) : List Event :=
      texts.map fun text : String => ⟨.scalar, some text, none⟩
    let plain (kind : EventKind) : Event := ⟨kind, none, none⟩
    let mapping (texts : List String) : List Event :=
      plain .mappingStart :: (scalars texts ++ [plain .mappingEnd])
    let document (inner : List Event) : List Event :=
      plain .documentStart :: (inner ++ [plain .documentEnd])
    let whole := document (mapping ["start", "0x100", "end", "0x10f", "fill", "0xff"])
    let split := document (mapping ["fill", "0xff"] ++ mapping ["end", "0x10f", "start", "0x100"])
    let setting : Setting := ⟨none, fun _ => .ok 0⟩
    let state : State := ⟨.stream, #[], {}, []⟩
    ∃ segment : Segment, segment.count = 16 ∧
      (Outcome.added segment).Ends setting state whole ∧
      (Outcome.added segment).Ends setting state split := by
  intro scalars plain mapping document whole split setting state
  have one : IsDocument whole [("start", "0x100"), ("end", "0x10f"), ("fill", "0xff")] :=
    ⟨_, _, _, rfl, rfl,
      .cons rfl (.cons rfl rfl (.cons rfl rfl (.cons rfl rfl .nil))) rfl .nil, rfl⟩
  have other : IsDocument split [("fill", "0xff"), ("end", "0x10f"), ("start", "0x100")] :=
    ⟨_, _, _, rfl, rfl, .cons rfl (.cons rfl rfl .nil) rfl
      (.cons rfl (.cons rfl rfl (.cons rfl rfl .nil)) rfl .nil), rfl⟩
  obtain ⟨⟨outcome, ends⟩, agree, _⟩ :=
    consume_permuted (show state.phase = .stream from rfl) one other (by decide)
  have accepted : (consume setting state (whole ++ [plain .streamEnd])).2 = none := by
    decide +kernel
  have counts : (consume setting state (whole ++ [plain .streamEnd])).1.segments.map
      (·.count) = #[16] := by decide +kernel
  cases outcome with
  | added segment =>
    obtain ⟨seen, passes⟩ := ends
    rw [passes [plain .streamEnd]] at counts
    have count : segment.count = 16 := by
      simpa [consume, Document.consume, feed, State.done, plain, state] using counts
    exact ⟨segment, count, ⟨seen, passes⟩, (agree segment).mp ⟨seen, passes⟩⟩
  | rejected =>
    obtain ⟨error, _, next, _, failed⟩ := ends
    rw [failed] at accepted
    cases accepted
  | defect cause =>
    obtain ⟨next, _, failed⟩ := ends
    rw [failed] at accepted
    cases accepted

/-- No system has a file whose name holds a NUL: what measuring it fails with is no error of memory
maps, whichever key comes first. -/
theorem consume_nul :
    let size (path : Path) : Except FileError Nat :=
      if path.parts = ["a\x00b"] then .error (.defect .nulInPath) else .ok 1
    let scalars (texts : List String) : List Event :=
      texts.map fun text : String => ⟨.scalar, some text, none⟩
    let plain (kind : EventKind) : Event := ⟨kind, none, none⟩
    let outcome (texts : List String) : Option MemoryMapError :=
      (consume ⟨none, size⟩ .initial
        ([plain .streamStart, plain .documentStart, plain .mappingStart] ++ scalars texts ++
          [plain .mappingEnd, plain .documentEnd, plain .streamEnd])).2
    outcome ["start", "0", "file", "a\x00b"] = some (.defect .nulInPath) ∧
      outcome ["file", "a\x00b", "start", "0"] = some (.defect .nulInPath) := by
  decide +kernel

end MemoryBoard.MemoryMap
