import MemoryBoard.Proofs.MemoryMap.Description

set_option autoImplicit false

namespace MemoryBoard.MemoryMap

open Yaml

/-- Scalars in pairs, and the entries that they are. -/
inductive Entries : List Event → List Entry → Prop where
  | nil : Entries [] []
  | cons {key value : Event} {events : List Event} {entries : List Entry} :
      key.kind = .scalar → value.kind = .scalar → Entries events entries →
      Entries (key :: value :: events) ((key.text, value.text) :: entries)

/-- Mappings one after another, and the entries of all of them. -/
inductive Mappings : List Event → List Entry → Prop where
  | nil : Mappings [] []
  | cons {opening closing : Event} {inner events : List Event} {entries further : List Entry} :
      opening.kind = .mappingStart → Entries inner entries → closing.kind = .mappingEnd →
      Mappings events further →
      Mappings (opening :: (inner ++ closing :: events)) (entries ++ further)

/-- Documents one after another, and the segments that they describe. -/
inductive Documents (setting : Setting) : List Event → List Segment → Prop where
  | nil : Documents setting [] []
  | cons {opening closing : Event} {inner events : List Event} {entries : List Entry}
      {segment : Segment} {segments : List Segment} :
      opening.kind = .documentStart → Mappings inner entries → closing.kind = .documentEnd →
      Describes setting entries segment → Documents setting events segments →
      Documents setting (opening :: (inner ++ closing :: events)) (segment :: segments)

/-- A stream of documents. Events behind its end play no part. -/
def Stream (setting : Setting) (events : List Event) (segments : List Segment) : Prop :=
  ∃ opening inner closing ignored, events = opening :: (inner ++ closing :: ignored) ∧
    opening.kind = .streamStart ∧ Documents setting inner segments ∧ closing.kind = .streamEnd

/-- What can follow inside a stream. -/
def StreamRest (setting : Setting) (events : List Event) (segments : List Segment) : Prop :=
  ∃ inner closing ignored, events = inner ++ closing :: ignored ∧
    Documents setting inner segments ∧ closing.kind = .streamEnd

/-- What can follow inside a document whose entries from here on satisfy a claim. -/
def DocumentRest (setting : Setting) (claim : List Entry → Segment → Prop) (events : List Event)
    (segments : List Segment) : Prop :=
  ∃ inner closing later entries segment further, events = inner ++ closing :: later ∧
    Mappings inner entries ∧ closing.kind = .documentEnd ∧ claim entries segment ∧
    segments = segment :: further ∧ StreamRest setting later further

/-- What can follow inside a mapping in front of a key. -/
def KeyRest (setting : Setting) (claim : List Entry → Segment → Prop) (events : List Event)
    (segments : List Segment) : Prop :=
  ∃ inner closing later entries, events = inner ++ closing :: later ∧ Entries inner entries ∧
    closing.kind = .mappingEnd ∧
    DocumentRest setting (fun further => claim (entries ++ further)) later segments

/-- What can follow behind a key. -/
def ValueRest (setting : Setting) (claim : Text.CodeText → List Entry → Segment → Prop)
    (events : List Event) (segments : List Segment) : Prop :=
  ∃ value later, events = value :: later ∧ value.kind = .scalar ∧
    KeyRest setting (claim value.text) later segments

variable {setting : Setting} {claim : List Entry → Segment → Prop} {event : Event}
  {rest events : List Event} {segments : List Segment}

theorem stream_cons_iff : Stream setting (event :: rest) segments ↔
    event.kind = .streamStart ∧ StreamRest setting rest segments := by
  constructor
  · intro ⟨opening, inner, closing, ignored, same, begins, documents, ends⟩
    cases same
    exact ⟨begins, inner, closing, ignored, rfl, documents, ends⟩
  · intro ⟨begins, inner, closing, ignored, same, documents, ends⟩
    subst same
    exact ⟨event, inner, closing, ignored, rfl, begins, documents, ends⟩

theorem streamRest_cons_iff : StreamRest setting (event :: rest) segments ↔
    event.kind = .streamEnd ∧ segments = [] ∨
      event.kind = .documentStart ∧ DocumentRest setting (Describes setting) rest segments := by
  constructor
  · intro ⟨inner, closing, ignored, same, documents, ends⟩
    cases documents with
    | nil =>
      cases same
      exact Or.inl ⟨ends, rfl⟩
    | cons begins mappings finishes describes documents =>
      rw [List.cons_append, List.append_assoc, List.cons_append] at same
      cases same
      exact Or.inr ⟨begins, _, _, _, _, _, _, rfl, mappings, finishes, describes, rfl, _, _, _, rfl,
        documents, ends⟩
  · intro either
    rcases either with ⟨ends, none⟩ | ⟨begins, document⟩
    · subst none
      exact ⟨[], event, rest, rfl, .nil, ends⟩
    · obtain ⟨inner, closing, later, entries, segment, further, same, mappings, finishes, describes,
        more, documents, ending, ignored, follows, inside, ends⟩ := document
      subst same more follows
      refine ⟨event :: (inner ++ closing :: documents), ending, ignored, ?_,
        .cons begins mappings finishes describes inside, ends⟩
      rw [List.cons_append, List.append_assoc, List.cons_append]

theorem documentRest_cons_iff : DocumentRest setting claim (event :: rest) segments ↔
    event.kind = .mappingStart ∧ KeyRest setting claim rest segments ∨
      event.kind = .documentEnd ∧ ∃ segment further, claim [] segment ∧
        segments = segment :: further ∧ StreamRest setting rest further := by
  constructor
  · intro ⟨inner, closing, later, entries, segment, further, same, mappings, ends, holds, more,
      follows⟩
    cases mappings with
    | nil =>
      cases same
      exact Or.inr ⟨ends, segment, further, holds, more, follows⟩
    | cons begins paired finishes mappings =>
      rw [List.cons_append, List.append_assoc, List.cons_append] at same
      cases same
      exact Or.inl ⟨begins, _, _, _, _, rfl, paired, finishes, _, _, _, _, _, _, rfl, mappings,
        ends, holds, more, follows⟩
  · intro either
    rcases either with ⟨begins, mapping⟩ | ⟨ends, segment, further, holds, more, follows⟩
    · obtain ⟨pairs, finish, after, entries, same, paired, finishes, inner, closing, later, others,
        segment, further, again, mappings, ends, holds, more, follows⟩ := mapping
      subst same again
      refine ⟨event :: (pairs ++ finish :: inner), closing, later, entries ++ others, segment,
        further, ?_, .cons begins paired finishes mappings, ends, holds, more, follows⟩
      rw [List.cons_append, List.append_assoc, List.cons_append]
    · exact ⟨[], event, rest, [], segment, further, rfl, .nil, ends, holds, more, follows⟩

theorem keyRest_cons_iff : KeyRest setting claim (event :: rest) segments ↔
    event.kind = .mappingEnd ∧ DocumentRest setting claim rest segments ∨
      event.kind = .scalar ∧
        ValueRest setting
          (fun text entries segment => claim ((event.text, text) :: entries) segment)
          rest segments := by
  constructor
  · intro ⟨inner, closing, later, entries, same, paired, ends, follows⟩
    cases paired with
    | nil =>
      cases same
      exact Or.inl ⟨ends, follows⟩
    | cons named valued paired =>
      cases same
      exact Or.inr ⟨named, _, _, rfl, valued, _, _, _, _, rfl, paired, ends, follows⟩
  · intro either
    rcases either with ⟨ends, follows⟩ | ⟨named, valued⟩
    · exact ⟨[], event, rest, [], rfl, .nil, ends, follows⟩
    · obtain ⟨value, after, same, valued, inner, closing, later, entries, again, paired, ends,
        follows⟩ := valued
      subst same again
      exact ⟨event :: value :: inner, closing, later, (event.text, value.text) :: entries, rfl,
        .cons named valued paired, ends, follows⟩

theorem valueRest_cons_iff {claim : Text.CodeText → List Entry → Segment → Prop} :
    ValueRest setting claim (event :: rest) segments ↔
      event.kind = .scalar ∧ KeyRest setting (claim event.text) rest segments := by
  constructor
  · intro ⟨value, later, same, valued, follows⟩
    cases same
    exact ⟨valued, follows⟩
  · intro ⟨valued, follows⟩
    exact ⟨event, rest, rfl, valued, follows⟩

section Exists

variable {α : Sort _}

theorem documentRest_exists {claim : α → List Entry → Segment → Prop} :
    DocumentRest setting (fun entries segment => ∃ it, claim it entries segment) events segments ↔
      ∃ it, DocumentRest setting (claim it) events segments := by
  constructor
  · intro ⟨inner, closing, later, entries, segment, further, same, mappings, ends, ⟨it, holds⟩,
      follows⟩
    exact ⟨it, inner, closing, later, entries, segment, further, same, mappings, ends, holds,
      follows⟩
  · intro ⟨it, inner, closing, later, entries, segment, further, same, mappings, ends, holds,
      follows⟩
    exact ⟨inner, closing, later, entries, segment, further, same, mappings, ends, ⟨it, holds⟩,
      follows⟩

theorem keyRest_exists {claim : α → List Entry → Segment → Prop} :
    KeyRest setting (fun entries segment => ∃ it, claim it entries segment) events segments ↔
      ∃ it, KeyRest setting (claim it) events segments := by
  constructor
  · intro ⟨inner, closing, later, entries, same, paired, ends, follows⟩
    obtain ⟨it, follows⟩ := documentRest_exists.mp follows
    exact ⟨it, inner, closing, later, entries, same, paired, ends, follows⟩
  · intro ⟨it, inner, closing, later, entries, same, paired, ends, follows⟩
    exact ⟨inner, closing, later, entries, same, paired, ends,
      documentRest_exists.mpr ⟨it, follows⟩⟩

theorem valueRest_exists {claim : α → Text.CodeText → List Entry → Segment → Prop} :
    ValueRest setting (fun text entries segment => ∃ it, claim it text entries segment) events
        segments ↔
      ∃ it, ValueRest setting (claim it) events segments := by
  constructor
  · intro ⟨value, later, same, valued, follows⟩
    obtain ⟨it, follows⟩ := keyRest_exists.mp follows
    exact ⟨it, value, later, same, valued, follows⟩
  · intro ⟨it, value, later, same, valued, follows⟩
    exact ⟨value, later, same, valued, keyRest_exists.mpr ⟨it, follows⟩⟩

end Exists

theorem keyRest_and {fact : Prop} :
    KeyRest setting (fun entries segment => fact ∧ claim entries segment) events segments ↔
      fact ∧ KeyRest setting claim events segments := by
  simp only [← exists_prop, keyRest_exists]

theorem valueRest_and {fact : Prop} {claim : Text.CodeText → List Entry → Segment → Prop} :
    ValueRest setting (fun text entries segment => fact ∧ claim text entries segment) events
        segments ↔
      fact ∧ ValueRest setting claim events segments := by
  simp only [← exists_prop, valueRest_exists]

end MemoryBoard.MemoryMap
