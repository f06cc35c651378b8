import MemoryBoard.Proofs.Config.Field

set_option autoImplicit false

namespace MemoryBoard.Config

open Yaml

/-- Things in brackets, one after another. -/
inductive Bracketed (opens closes : EventKind) (Inside : List Event → Prop) :
    List Event → Prop where
  | nil : Bracketed opens closes Inside []
  | cons {opening closing : Event} {inner events : List Event} :
      opening.kind = opens → Inside inner → closing.kind = closes →
      Bracketed opens closes Inside events →
      Bracketed opens closes Inside (opening :: (inner ++ closing :: events))

/-- Keys with scalars for values, and between the keys of the floppy controller those of its disks
with a mapping each. -/
inductive Section : Group → List Event → Prop where
  | nil {group : Group} : Section group []
  | field {group : Group} {key value : Event} {field : Field} {events : List Event} :
      key.kind = .scalar → (key.text, field) ∈ group.fields → value.kind = .scalar →
      field.Converts value.text → Section group events → Section group (key :: value :: events)
  | disk {key opening closing : Event} {drive : Fin driveCount} {inner events : List Event} :
      key.kind = .scalar → key.text = driveKey drive → opening.kind = .mappingStart →
      Section .disk inner → closing.kind = .mappingEnd → Section .fdc events →
      Section .fdc (key :: opening :: (inner ++ closing :: events))

/-- Keys of sections with a mapping each. -/
inductive Sections : List Event → Prop where
  | nil : Sections []
  | cons {key opening closing : Event} {group : Group} {inner events : List Event} :
      key.kind = .scalar → (key.text, group) ∈ sections → opening.kind = .mappingStart →
      Section group inner → closing.kind = .mappingEnd → Sections events →
      Sections (key :: opening :: (inner ++ closing :: events))

abbrev Mappings : List Event → Prop :=
  Bracketed .mappingStart .mappingEnd Sections

abbrev Documents : List Event → Prop :=
  Bracketed .documentStart .documentEnd Mappings

/-- A stream of documents. Events behind its end play no part. -/
def Stream (events : List Event) : Prop :=
  ∃ opening inner closing ignored, events = opening :: (inner ++ closing :: ignored) ∧
    opening.kind = .streamStart ∧ Documents inner ∧ closing.kind = .streamEnd

/-- Something that ends, and what follows behind its end. -/
def Within (Inside : List Event → Prop) (closes : EventKind) (After : List Event → Prop)
    (events : List Event) : Prop :=
  ∃ inner closing later, events = inner ++ closing :: later ∧ Inside inner ∧
    closing.kind = closes ∧ After later

/-- A mapping that begins, and what follows in it. -/
def Opens (After : List Event → Prop) (events : List Event) : Prop :=
  ∃ opening later, events = opening :: later ∧ opening.kind = .mappingStart ∧ After later

/-- A value for a field, and what follows. -/
def Valued (field : Field) (After : List Event → Prop) (events : List Event) : Prop :=
  ∃ value later, events = value :: later ∧ value.kind = .scalar ∧ field.Converts value.text ∧
    After later

def StreamRest : List Event → Prop :=
  Within Documents .streamEnd fun _ => True

def DocumentRest : List Event → Prop :=
  Within Mappings .documentEnd StreamRest

def TopRest : List Event → Prop :=
  Within Sections .mappingEnd DocumentRest

/-- What can follow behind a mapping. -/
def AfterGroup : Group → List Event → Prop
  | .wifi => TopRest
  | .video => TopRest
  | .fdc => TopRest
  | .disk => Within (Section .fdc) .mappingEnd TopRest

def GroupRest (group : Group) : List Event → Prop :=
  Within (Section group) .mappingEnd (AfterGroup group)

/-- What the grammar leaves to be read in each phase. -/
def Rest : Phase → List Event → Prop
  | .start => Stream
  | .stream => StreamRest
  | .document => DocumentRest
  | .top => TopRest
  | .opening group => Opens (GroupRest group)
  | .inside group => GroupRest group
  | .value field => Valued field (GroupRest field.group)
  | .stop => fun _ => True

theorem rest_parent (group : Group) : Rest group.parent = AfterGroup group := by
  cases group <;> rfl

theorem groupRest_of_mem {key : Text.CodeText} {group : Group} (known : (key, group) ∈ sections) :
    GroupRest group = Within (Section group) .mappingEnd TopRest := by
  have each : ∀ entry ∈ sections, entry.2 ≠ .disk := by decide
  cases group with
  | disk => exact absurd rfl (each _ known)
  | _ => rfl

variable {event : Event} {rest : List Event} {Inside After : List Event → Prop}
  {opens closes finish : EventKind}

theorem stream_cons_iff : Stream (event :: rest) ↔ event.kind = .streamStart ∧ StreamRest rest := by
  constructor
  · intro ⟨opening, inner, closing, ignored, same, begins, documents, ends⟩
    cases same
    exact ⟨begins, inner, closing, ignored, rfl, documents, ends, trivial⟩
  · intro ⟨begins, inner, closing, ignored, same, documents, ends, _⟩
    subst same
    exact ⟨event, inner, closing, ignored, rfl, begins, documents, ends⟩

theorem opens_cons_iff : Opens After (event :: rest) ↔
    event.kind = .mappingStart ∧ After rest := by
  constructor
  · intro ⟨opening, later, same, begins, follows⟩
    cases same
    exact ⟨begins, follows⟩
  · intro ⟨begins, follows⟩
    exact ⟨event, rest, rfl, begins, follows⟩

theorem valued_cons_iff {field : Field} : Valued field After (event :: rest) ↔
    event.kind = .scalar ∧ field.Converts event.text ∧ After rest := by
  constructor
  · intro ⟨value, later, same, valued, converts, follows⟩
    cases same
    exact ⟨valued, converts, follows⟩
  · intro ⟨valued, converts, follows⟩
    exact ⟨event, rest, rfl, valued, converts, follows⟩

theorem bracketed_cons_iff :
    Within (Bracketed opens closes Inside) finish After (event :: rest) ↔
      event.kind = finish ∧ After rest ∨
        event.kind = opens ∧
          Within Inside closes (Within (Bracketed opens closes Inside) finish After) rest := by
  constructor
  · intro ⟨inner, closing, later, same, bracketed, ends, follows⟩
    cases bracketed with
    | nil =>
      cases same
      exact Or.inl ⟨ends, follows⟩
    | cons begins inside closed more =>
      rw [List.cons_append, List.append_assoc, List.cons_append] at same
      cases same
      exact Or.inr ⟨begins, _, _, _, rfl, inside, closed, _, _, _, rfl, more, ends, follows⟩
  · intro either
    rcases either with ⟨ends, follows⟩ | ⟨begins, within⟩
    · exact ⟨[], event, rest, rfl, .nil, ends, follows⟩
    · obtain ⟨first, closed, after, same, inside, closes, inner, closing, later, again, more, ends,
        follows⟩ := within
      subst same again
      refine ⟨event :: (first ++ closed :: inner), closing, later, ?_,
        .cons begins inside closes more, ends, follows⟩
      rw [List.cons_append, List.append_assoc, List.cons_append]

theorem sections_cons_iff : Within Sections finish After (event :: rest) ↔
    event.kind = finish ∧ After rest ∨
      event.kind = .scalar ∧ ∃ group, (event.text, group) ∈ sections ∧
        Opens (Within (Section group) .mappingEnd (Within Sections finish After)) rest := by
  constructor
  · intro ⟨inner, closing, later, same, keyed, ends, follows⟩
    cases keyed with
    | nil =>
      cases same
      exact Or.inl ⟨ends, follows⟩
    | cons named known begins inside closed more =>
      rw [List.cons_append, List.cons_append, List.append_assoc, List.cons_append] at same
      cases same
      exact Or.inr ⟨named, _, known, _, _, rfl, begins, _, _, _, rfl, inside, closed, _, _, _, rfl,
        more, ends, follows⟩
  · intro either
    rcases either with ⟨ends, follows⟩ | ⟨named, group, known, opened⟩
    · exact ⟨[], event, rest, rfl, .nil, ends, follows⟩
    · obtain ⟨opening, behind, same, begins, first, closed, after, again, inside, closes, inner,
        closing, later, still, more, ends, follows⟩ := opened
      subst same again still
      refine ⟨event :: opening :: (first ++ closed :: inner), closing, later, ?_,
        .cons named known begins inside closes more, ends, follows⟩
      rw [List.cons_append, List.cons_append, List.append_assoc, List.cons_append]

theorem section_cons_iff {group : Group} : Within (Section group) finish After (event :: rest) ↔
    event.kind = finish ∧ After rest ∨
      event.kind = .scalar ∧
        ((∃ field, (event.text, field) ∈ group.fields ∧
          Valued field (Within (Section group) finish After) rest) ∨
        group = .fdc ∧ ∃ drive, event.text = driveKey drive ∧
          Opens (Within (Section .disk) .mappingEnd
            (Within (Section .fdc) finish After)) rest) := by
  constructor
  · intro ⟨inner, closing, later, same, keyed, ends, follows⟩
    cases keyed with
    | nil =>
      cases same
      exact Or.inl ⟨ends, follows⟩
    | field named known valued converts more =>
      cases same
      exact Or.inr ⟨named, Or.inl ⟨_, known, _, _, rfl, valued, converts, _, _, _, rfl, more, ends,
        follows⟩⟩
    | disk named driven begins inside closed more =>
      rw [List.cons_append, List.cons_append, List.append_assoc, List.cons_append] at same
      cases same
      exact Or.inr ⟨named, Or.inr ⟨rfl, _, driven, _, _, rfl, begins, _, _, _, rfl, inside, closed,
        _, _, _, rfl, more, ends, follows⟩⟩
  · intro either
    rcases either with ⟨ends, follows⟩ | ⟨named, ⟨field, known, valued⟩ |
      ⟨isFdc, drive, driven, opened⟩⟩
    · exact ⟨[], event, rest, rfl, .nil, ends, follows⟩
    · obtain ⟨value, after, same, valued, converts, inner, closing, later, again, more, ends,
        follows⟩ := valued
      subst same again
      exact ⟨event :: value :: inner, closing, later, rfl, .field named known valued converts more,
        ends, follows⟩
    · obtain ⟨opening, behind, same, begins, first, closed, after, again, inside, closes, inner,
        closing, later, still, more, ends, follows⟩ := opened
      subst isFdc same again still
      refine ⟨event :: opening :: (first ++ closed :: inner), closing, later, ?_,
        .disk named driven begins inside closes more, ends, follows⟩
      rw [List.cons_append, List.cons_append, List.append_assoc, List.cons_append]

theorem not_rest_nil {phase : Phase} (going : phase ≠ .stop) : ¬ Rest phase [] := by
  cases phase <;>
    simp_all [Rest, Stream, StreamRest, DocumentRest, TopRest, GroupRest, Within, Opens, Valued]

end MemoryBoard.Config
