import MemoryBoard.Proofs.MemoryMap.Field

set_option autoImplicit false

namespace MemoryBoard

/-- A segment with another count. -/
def Segment.counted (segment : Segment) (count : Int) : Segment :=
  { segment with count }

namespace MemoryMap

/-- The text of a key and the text of its value. -/
abbrev Entry := Text.CodeText × Text.CodeText

/-- Entries with different keys that are known, and a segment that has what they say and no more. -/
structure Fills (setting : Setting) (entries : List Entry) (segment : Segment) : Prop where
  distinct : (entries.map Prod.fst).Nodup
  known : ∀ entry ∈ entries, ∃ field : Field, field.key = entry.1
  given : ∀ (field : Field) (text : Text.CodeText), (field.key, text) ∈ entries →
    field.Reads setting text segment
  absent : ∀ field : Field, (∀ text, (field.key, text) ∉ entries) → field.Absent segment

/-- How many addresses a segment takes: the length of its data or the size of its file, or else all
up to its end. -/
def Measured (setting : Setting) (segment : Segment) (first count : Int) : Prop :=
  (∃ bytes, segment.data = some bytes ∧ count = bytes.length) ∨
    (∃ path size, segment.path = some path ∧ setting.size path = .ok size ∧ count = size) ∨
    (segment.data = none ∧ segment.path = none ∧
      ∃ last, segment.last = some last ∧ count = last - first + 1)

/-- What has to hold of a segment that begins at `first` before its document can end. -/
structure Complete (setting : Setting) (segment : Segment) (first : Int) : Prop where
  start : segment.start = some first
  order : ∀ last, segment.last = some last → first ≤ last
  placed : segment.last.isSome ∨ segment.data.isSome ∨ segment.file.isSome
  single : ¬ (segment.data.isSome ∧ segment.file.isSome)
  filled : segment.fill.isSome → segment.last.isSome
  active : segment.data.isSome ∨ segment.file.isSome ∨ segment.fill.isSome ∨
    segment.enabled.isSome ∨ segment.readonly.isSome
  measured : Measured setting segment first segment.count
  inside : first + segment.count ≤ 0x10000
  within : ∀ last, segment.last = some last → segment.count ≤ last - first + 1

/-- A segment that the entries of a document describe. -/
def Describes (setting : Setting) (entries : List Entry) (segment : Segment) : Prop :=
  Fills setting entries segment ∧ ∃ first, Complete setting segment first

/-- Entries that are stored one after another. -/
inductive Gathers (setting : Setting) :
    Segment → List Field → List Entry → Segment → List Field → Prop where
  | nil {current : Segment} {seen : List Field} : Gathers setting current seen [] current seen
  | cons {current next final : Segment} {seen all : List Field} {field : Field}
      {text : Text.CodeText} {entries : List Entry} : field ∉ seen → store setting current field text = .ok next →
      Gathers setting next (field :: seen) entries final all →
      Gathers setting current seen ((field.key, text) :: entries) final all

variable {setting : Setting} {current final segment : Segment} {seen all : List Field}
  {entries : List Entry}

theorem gathers_cons {key text : Text.CodeText} :
    Gathers setting current seen ((key, text) :: entries) final all ↔
      ∃ field : Field, field.key = key ∧ field ∉ seen ∧
        ∃ next, store setting current field text = .ok next ∧
          Gathers setting next (field :: seen) entries final all := by
  constructor
  · intro gathers
    cases gathers with
    | cons fresh stored later => exact ⟨_, rfl, fresh, _, stored, later⟩
  · intro ⟨field, named, fresh, next, stored, later⟩
    subst named
    exact .cons fresh stored later

theorem gathers_append {further : List Entry} :
    Gathers setting current seen (entries ++ further) final all ↔
      ∃ middle between, Gathers setting current seen entries middle between ∧
        Gathers setting middle between further final all := by
  induction entries generalizing current seen with
  | nil =>
    constructor
    · intro gathers
      exact ⟨current, seen, .nil, gathers⟩
    · intro ⟨middle, between, first, second⟩
      cases first
      exact second
  | cons entry rest ih =>
    obtain ⟨key, text⟩ := entry
    simp only [List.cons_append, gathers_cons, ih]
    constructor
    · intro ⟨field, named, fresh, next, stored, middle, between, first, second⟩
      exact ⟨middle, between, ⟨field, named, fresh, next, stored, first⟩, second⟩
    · intro ⟨middle, between, ⟨field, named, fresh, next, stored, first⟩, second⟩
      exact ⟨field, named, fresh, next, stored, middle, between, first, second⟩

/-- Stored entries have fresh keys and leave in the segment what they say. -/
theorem Gathers.fills (gathers : Gathers setting current seen entries final all) :
    (entries.map Prod.fst).Nodup ∧
      (∀ entry ∈ entries, ∃ field : Field, field.key = entry.1 ∧ field ∉ seen) ∧
      (∀ (field : Field) (text : Text.CodeText), (field.key, text) ∈ entries →
        field.Reads setting text final) ∧
      (∀ field : Field, (∀ text, (field.key, text) ∉ entries) → field.Same current final) ∧
      final.count = current.count := by
  induction gathers with
  | nil =>
    refine ⟨List.nodup_nil, ?_, ?_, ?_, rfl⟩
    · intro entry member
      cases member
    · intro field text member
      cases member
    · intro field _
      exact Field.Same.refl _ field
  | @cons current next final seen all field text entries fresh stored _ ih =>
    obtain ⟨distinct, known, given, others, count⟩ := ih
    obtain ⟨source, reads, rfl⟩ := store_eq_ok.mp stored
    -- The field is seen from here on, so that no later entry overwrites it.
    have alone : ∀ text, (field.key, text) ∉ entries := by
      intro text member
      obtain ⟨other, same, unseen⟩ := known _ member
      rw [Field.key_injective same] at unseen
      exact unseen List.mem_cons_self
    refine ⟨?_, ?_, ?_, ?_, ?_⟩
    · rw [List.map_cons, List.nodup_cons]
      refine ⟨?_, distinct⟩
      intro member
      obtain ⟨⟨key, value⟩, inside, same⟩ := List.mem_map.mp member
      simp only at same
      rw [same] at inside
      exact alone value inside
    · intro entry member
      rcases List.mem_cons.mp member with same | later
      · rw [same]
        exact ⟨field, rfl, fresh⟩
      · obtain ⟨other, named, unseen⟩ := known entry later
        exact ⟨other, named, fun seen => unseen (List.mem_cons_of_mem field seen)⟩
    · intro other value member
      rcases List.mem_cons.mp member with same | later
      · have named := Field.key_injective (Prod.mk.inj same).1
        have valued := (Prod.mk.inj same).2
        subst named valued
        exact (reads.same (Field.same_put source current other)).same (others other alone)
      · exact given other value later
    · intro other missing
      have apart : other ≠ field := by
        intro same
        rw [same] at missing
        exact missing text List.mem_cons_self
      refine (Field.same_put_other source current apart).trans (others other ?_)
      intro value member
      exact missing value (List.mem_cons_of_mem _ member)
    · rw [count, Field.count_put]

/-- Entries that say what a segment has can be stored, and give that segment. -/
theorem Gathers.of_fills (distinct : (entries.map Prod.fst).Nodup)
    (known : ∀ entry ∈ entries, ∃ field : Field, field.key = entry.1 ∧ field ∉ seen)
    (given : ∀ (field : Field) (text : Text.CodeText), (field.key, text) ∈ entries →
      field.Reads setting text segment)
    (others : ∀ field : Field, (∀ text, (field.key, text) ∉ entries) →
      field.Same current segment)
    (count : segment.count = current.count) :
    ∃ all, Gathers setting current seen entries segment all := by
  induction entries generalizing current seen with
  | nil =>
    have same : current = segment :=
      segment_ext (fun field => others field fun text member => by cases member) count.symm
    rw [same]
    exact ⟨seen, .nil⟩
  | cons entry rest ih =>
    obtain ⟨key, text⟩ := entry
    obtain ⟨field, named, fresh⟩ := known _ List.mem_cons_self
    simp only at named
    subst named
    rw [List.map_cons, List.nodup_cons] at distinct
    obtain ⟨alone, distinct⟩ := distinct
    have reads := given field text List.mem_cons_self
    have stored : store setting current field text = .ok (field.put segment current) :=
      store_eq_ok.mpr ⟨segment, reads, rfl⟩
    have bare : ∀ value, (field.key, value) ∉ rest := by
      intro value member
      exact alone (List.mem_map.mpr ⟨(field.key, value), member, rfl⟩)
    obtain ⟨all, later⟩ : ∃ all,
        Gathers setting (field.put segment current) (field :: seen) rest segment all := by
      apply ih distinct
      · intro entry member
        obtain ⟨other, named, unseen⟩ := known entry (List.mem_cons_of_mem _ member)
        refine ⟨other, named, fun again => ?_⟩
        rcases List.mem_cons.mp again with same | old
        · rw [same] at named
          exact bare entry.2 (by rw [named]; exact member)
        · exact unseen old
      · intro other value member
        exact given other value (List.mem_cons_of_mem _ member)
      · intro other missing
        by_cases same : other = field
        · rw [same]
          exact (Field.same_put segment current field).symm
        · refine (Field.same_put_other segment current same).symm.trans (others other ?_)
          intro value member
          rcases List.mem_cons.mp member with equal | old
          · exact same (Field.key_injective (Prod.mk.inj equal).1)
          · exact missing value old
      · rw [Field.count_put]
        exact count
    exact ⟨all, .cons fresh stored later⟩

theorem Field.same_counted (segment : Segment) (count : Int) (field : Field) :
    field.Same segment (segment.counted count) := by
  cases field <;> simp only [Same, Segment.counted, and_self]

/-- Storing the entries of a document from nothing on gives the segment that they fill. -/
theorem fills_iff_gathers : Fills setting entries segment ↔
    ∃ all, Gathers setting {} [] entries (segment.counted 0) all := by
  constructor
  · intro ⟨distinct, known, given, absent⟩
    apply Gathers.of_fills distinct
    · intro entry member
      obtain ⟨field, named⟩ := known entry member
      exact ⟨field, named, by simp⟩
    · intro field text member
      exact (given field text member).same (Field.same_counted segment 0 field)
    · intro field missing
      exact (Field.absent_iff.mp (absent field missing)).trans (Field.same_counted segment 0 field)
    · rfl
  · intro ⟨all, gathers⟩
    obtain ⟨distinct, known, given, others, _⟩ := gathers.fills
    refine ⟨distinct, ?_, ?_, ?_⟩
    · intro entry member
      obtain ⟨field, named, _⟩ := known entry member
      exact ⟨field, named⟩
    · intro field text member
      exact (given field text member).same (Field.same_counted segment 0 field).symm
    · intro field missing
      exact Field.absent_iff.mpr
        ((others field missing).trans (Field.same_counted segment 0 field).symm)

theorem hasAction_iff : segment.hasAction = true ↔
    segment.data.isSome ∨ segment.file.isSome ∨ segment.fill.isSome ∨ segment.enabled.isSome ∨
      segment.readonly.isSome := by
  simp only [Segment.hasAction, Bool.or_eq_true, or_assoc]

theorem not_reversed_iff {first : Int} : ¬ segment.last.any (· < first) = true ↔
    ∀ last, segment.last = some last → first ≤ last := by
  cases segment.last with
  | none => simp
  | some last => simp

theorem check_eq_ok {first : Int} : check segment = .ok first ↔
    segment.start = some first ∧ (∀ last, segment.last = some last → first ≤ last) ∧
      (segment.last.isSome ∨ segment.data.isSome ∨ segment.file.isSome) ∧
      ¬ (segment.data.isSome ∧ segment.file.isSome) ∧
      (segment.fill.isSome → segment.last.isSome) ∧
      (segment.data.isSome ∨ segment.file.isSome ∨ segment.fill.isSome ∨
        segment.enabled.isSome ∨ segment.readonly.isSome) := by
  rw [← hasAction_iff, ← not_reversed_iff]
  unfold check
  cases segment.start with
  | none =>
    constructor
    · intro impossible
      cases impossible
    · intro ⟨impossible, _⟩
      cases impossible
  | some start =>
    rw [Option.some.injEq]
    constructor
    · intro checked
      simp only at checked
      split at checked
      · cases checked
      split at checked
      · cases checked
      split at checked
      · cases checked
      split at checked
      · cases checked
      split at checked
      · cases checked
      rename_i order placed single filled active
      cases checked
      refine ⟨rfl, order, ?_, single, ?_, ?_⟩
      · cases last : segment.last <;> cases data : segment.data <;> cases file : segment.file <;>
          simp_all
      · cases last : segment.last <;> simp_all
      · simpa using active
    · intro ⟨same, order, placed, single, filled, active⟩
      subst same
      have extent : ¬ (segment.last.isNone = true ∧ segment.data.isNone = true ∧
          segment.file.isNone = true) := by
        simp only [← Option.not_isSome]
        rcases placed with given | given | given <;> simp [given]
      have ended : ¬ (segment.fill.isSome = true ∧ segment.last.isNone = true) := by
        intro ⟨fill, last⟩
        rw [← Option.not_isSome, filled fill] at last
        cases last
      simp only [order, extent, single, ended, active, Bool.not_true, Bool.false_eq_true,
        ↓reduceIte]

theorem fits_iff {first : Int} : fits segment first = true ↔
    first + segment.count ≤ 0x10000 ∧
      ∀ last, segment.last = some last → segment.count ≤ last - first + 1 := by
  unfold fits addressCount
  cases segment.last <;> simp

theorem not_fits_iff {first : Int} : ¬ fits segment first = true ↔
    0x10000 < first + segment.count ∨
      ∃ last, segment.last = some last ∧ last - first + 1 < segment.count := by
  rw [fits_iff]
  cases segment.last with
  | none => simp
  | some last =>
    simp only [Option.some.injEq, forall_eq', exists_eq_left']
    omega

/-- Whether a segment could come from entries: data are never empty, and a path comes with its
file. -/
def Tidy (segment : Segment) : Prop :=
  segment.data ≠ some [] ∧ segment.path.isSome = segment.file.isSome

theorem Tidy.empty : Tidy {} := by
  refine ⟨?_, rfl⟩
  intro impossible
  cases impossible

theorem Tidy.counted (tidy : Tidy segment) (count : Int) : Tidy (segment.counted count) :=
  tidy

theorem utf8?_ne_nil {text : Text.CodeText} {bytes : Bytes} (nonempty : text ≠ [])
    (form : text.utf8? = some bytes) : bytes ≠ [] := by
  obtain ⟨chars, plain, rfl⟩ := Option.map_eq_some_iff.mp form
  rw [Text.CodeText.chars?_eq_some.mp plain] at nonempty
  intro empty
  rw [Text.encodeUtf8, List.flatMap_eq_nil_iff] at empty
  cases chars with
  | nil => exact nonempty rfl
  | cons char rest => exact String.utf8EncodeChar_ne_nil (empty char List.mem_cons_self)

theorem Tidy.store {next : Segment} {field : Field} {text : Text.CodeText} (tidy : Tidy current)
    (stored : store setting current field text = .ok next) : Tidy next := by
  obtain ⟨source, reads, same⟩ := store_eq_ok.mp stored
  subst same
  cases field with
  | data =>
    obtain ⟨nonempty, bytes, form, held⟩ := reads
    refine ⟨?_, tidy.2⟩
    intro empty
    rw [show (Field.put source current .data).data = source.data from rfl, held,
      Option.some.injEq] at empty
    exact utf8?_ne_nil nonempty form empty
  | file =>
    obtain ⟨_, heldFile, heldPath⟩ := reads
    refine ⟨tidy.1, ?_⟩
    simp only [Field.put, heldFile, heldPath, Option.isSome_some]
  | _ => exact tidy

theorem extent_eq_ok {first count : Int} (tidy : Tidy segment)
    (placed : segment.last.isSome ∨ segment.data.isSome ∨ segment.file.isSome)
    (single : ¬ (segment.data.isSome ∧ segment.file.isSome)) :
    extent setting segment first = .ok count ↔ Measured setting segment first count := by
  obtain ⟨nonempty, same⟩ := tidy
  -- Empty data would be passed over for the size of a file.
  rw [← same] at placed single
  unfold extent Measured
  cases data : segment.data with
  | some bytes =>
    rw [data] at single nonempty
    cases located : segment.path with
    | some path =>
      rw [located] at single
      exact absurd ⟨rfl, rfl⟩ single
    | none =>
      cases bytes with
      | nil => exact absurd rfl nonempty
      | cons byte rest => simp [eq_comm]
  | none =>
    cases located : segment.path with
    | some path =>
      cases sized : setting.size path with
      | ok size => simp [sized, eq_comm]
      | error error => cases error <;> simp [sized]
    | none =>
      rw [data, located] at placed
      cases last : segment.last with
      | none => simp [last] at placed
      | some last => simp [eq_comm]

/-- A document can end if its segment is complete. -/
theorem close_eq_ok {state next : State} (tidy : Tidy state.current) :
    close setting state = (next, none) ↔
      ∃ segment first, segment = state.current.counted segment.count ∧
        Complete setting segment first ∧
        next = ⟨.stream, state.segments.push segment, segment, state.seen⟩ := by
  unfold close
  constructor
  · intro closed
    split at closed
    · cases closed
    rename_i first checked
    obtain ⟨start, order, placed, single, filled, active⟩ := check_eq_ok.mp checked
    split at closed
    · cases closed
    rename_i count extended
    have measured := (extent_eq_ok tidy placed single).mp extended
    simp only at closed
    split at closed
    · rename_i fit
      obtain ⟨inside, within⟩ := fits_iff.mp fit
      cases closed
      exact ⟨state.current.counted count, first, rfl,
        ⟨start, order, placed, single, filled, active, measured, inside, within⟩, rfl⟩
    · cases closed
  · intro ⟨segment, first, whole, complete, same⟩
    subst same
    obtain ⟨start, order, placed, single, filled, active, measured, inside, within⟩ := complete
    rw [whole] at start order placed single filled active
    have checked : check state.current = .ok first :=
      check_eq_ok.mpr ⟨start, order, placed, single, filled, active⟩
    have extended : extent setting state.current first = .ok segment.count := by
      rw [extent_eq_ok tidy placed single]
      rw [whole] at measured
      exact measured
    have fit : fits (state.current.counted segment.count) first = true := by
      rw [← whole]
      exact fits_iff.mpr ⟨inside, within⟩
    have grown : (⟨.stream, state.segments.push (state.current.counted segment.count),
        state.current.counted segment.count, state.seen⟩ : State) =
        ⟨.stream, state.segments.push segment, segment, state.seen⟩ := by
      rw [← whole]
    simp only [checked, extended]
    rw [← grown]
    exact if_pos fit

/-- Entries that a document can have from some point on, to end with a segment. -/
def Finishes (setting : Setting) (current : Segment) (seen : List Field) (entries : List Entry)
    (segment : Segment) : Prop :=
  ∃ whole all first, Gathers setting current seen entries whole all ∧
    segment = whole.counted segment.count ∧ Complete setting segment first

theorem finishes_nil : Finishes setting current seen [] segment ↔
    ∃ first, segment = current.counted segment.count ∧ Complete setting segment first := by
  constructor
  · intro ⟨whole, all, first, gathers, same, complete⟩
    cases gathers
    exact ⟨first, same, complete⟩
  · intro ⟨first, same, complete⟩
    exact ⟨current, seen, first, .nil, same, complete⟩

theorem finishes_cons {key text : Text.CodeText} :
    Finishes setting current seen ((key, text) :: entries) segment ↔
      ∃ field : Field, field.key = key ∧ field ∉ seen ∧
        ∃ next, store setting current field text = .ok next ∧
          Finishes setting next (field :: seen) entries segment := by
  constructor
  · intro ⟨whole, all, first, gathers, same, complete⟩
    obtain ⟨field, named, fresh, next, stored, later⟩ := gathers_cons.mp gathers
    exact ⟨field, named, fresh, next, stored, whole, all, first, later, same, complete⟩
  · intro ⟨field, named, fresh, next, stored, whole, all, first, later, same, complete⟩
    have gathers := gathers_cons.mpr ⟨field, named, fresh, next, stored, later⟩
    exact ⟨whole, all, first, gathers, same, complete⟩

/-- From the beginning of a document on, just its description can be read. -/
theorem finishes_start : Finishes setting {} [] = Describes setting := by
  funext entries segment
  apply propext
  constructor
  · intro ⟨whole, all, first, gathers, same, complete⟩
    have uncounted : whole.count = 0 := gathers.fills.2.2.2.2
    refine ⟨fills_iff_gathers.mpr ⟨all, ?_⟩, first, complete⟩
    rw [same]
    rwa [show (whole.counted segment.count).counted 0 = whole by rw [← uncounted]; rfl]
  · intro ⟨fills, first, complete⟩
    obtain ⟨all, gathers⟩ := fills_iff_gathers.mp fills
    exact ⟨_, all, first, gathers, rfl, complete⟩

end MemoryMap

end MemoryBoard
