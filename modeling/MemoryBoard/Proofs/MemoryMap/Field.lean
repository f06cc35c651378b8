import MemoryBoard.MemoryMap.Reader
import MemoryBoard.Proofs.Scan.Number

set_option autoImplicit false

namespace MemoryBoard.MemoryMap

namespace Field

/-- Whether a segment has in a field what a text says. Data are the UTF-8 form of their text, so a
text without one says nothing. -/
def Reads (setting : Setting) (text : Text.CodeText) (segment : Segment) : Field → Prop
  | start => ∃ value : Nat, Scan.Denotes 0xffff text value ∧ segment.start = some (value : Int)
  | last => ∃ value : Nat, Scan.Denotes 0xffff text value ∧ segment.last = some (value : Int)
  | enabled => text = "true" ∧ segment.enabled = some true ∨
      text = "false" ∧ segment.enabled = some false
  | type => text = "ram" ∧ segment.readonly = some false ∨
      text = "rom" ∧ segment.readonly = some true
  | fill => ∃ value : Nat, Scan.Denotes 0xff text value ∧ segment.fill = some (value : Int)
  | data => text ≠ [] ∧ ∃ bytes, text.utf8? = some bytes ∧ segment.data = some bytes
  | file => text ≠ [] ∧ segment.file = some text ∧ segment.path = some (setting.resolve text)

/-- Whether the text for a field is met with a defect. -/
def Stops (text : Text.CodeText) (cause : Defect) : Field → Prop
  | start | last | fill => cause = .tooManyDigits ∧ Scan.HasTooManyDigits text
  | data => cause = .unencodable ∧ ¬ text.IsPlain
  | _ => False

/-- Whether a segment has nothing in a field. -/
def Absent (segment : Segment) : Field → Prop
  | start => segment.start = none
  | last => segment.last = none
  | enabled => segment.enabled = none
  | type => segment.readonly = none
  | fill => segment.fill = none
  | data => segment.data = none
  | file => segment.file = none ∧ segment.path = none

/-- Whether two segments agree in a field. -/
def Same (first second : Segment) : Field → Prop
  | start => first.start = second.start
  | last => first.last = second.last
  | enabled => first.enabled = second.enabled
  | type => first.readonly = second.readonly
  | fill => first.fill = second.fill
  | data => first.data = second.data
  | file => first.file = second.file ∧ first.path = second.path

/-- The text of a key. -/
def key (field : Field) : Text.CodeText :=
  field.name

theorem ofName?_eq_some {name : Text.CodeText} {field : Field} :
    ofName? name = some field ↔ field.key = name := by
  constructor
  · intro found
    have named := List.find?_some (show all.find? (·.key == name) = some field from found)
    exact eq_of_beq named
  · rintro rfl
    cases field <;> rfl

theorem key_injective {first second : Field} (same : first.key = second.key) :
    first = second := by
  have one := ofName?_eq_some.mpr same
  rw [ofName?_eq_some.mpr rfl] at one
  exact (Option.some.inj one).symm

theorem Same.refl (segment : Segment) (field : Field) : field.Same segment segment := by
  cases field <;> simp only [Same, and_self]

theorem Same.trans {first second third : Segment} {field : Field} (one : field.Same first second)
    (other : field.Same second third) : field.Same first third := by
  cases field <;> simp_all only [Same, and_self]

theorem Same.symm {first second : Segment} {field : Field} (same : field.Same first second) :
    field.Same second first := by
  cases field <;> simp_all only [Same, and_self]

theorem Reads.same {setting : Setting} {text : Text.CodeText} {first second : Segment}
    {field : Field} (reads : field.Reads setting text first) (same : field.Same first second) :
    field.Reads setting text second := by
  cases field with
  | start => rwa [Reads, ← show first.start = second.start from same]
  | last => rwa [Reads, ← show first.last = second.last from same]
  | enabled => rwa [Reads, ← show first.enabled = second.enabled from same]
  | type => rwa [Reads, ← show first.readonly = second.readonly from same]
  | fill => rwa [Reads, ← show first.fill = second.fill from same]
  | data => rwa [Reads, ← show first.data = second.data from same]
  | file => rwa [Reads, ← same.1, ← same.2]

/-- A segment with a field as another one has it. -/
def put (source current : Segment) : Field → Segment
  | start => { current with start := source.start }
  | last => { current with last := source.last }
  | enabled => { current with enabled := source.enabled }
  | type => { current with readonly := source.readonly }
  | fill => { current with fill := source.fill }
  | data => { current with data := source.data }
  | file => { current with file := source.file, path := source.path }

theorem same_put (source current : Segment) (field : Field) :
    field.Same source (field.put source current) := by
  cases field <;> simp only [Same, put, and_self]

theorem same_put_other (source current : Segment) {field other : Field} (apart : other ≠ field) :
    other.Same current (field.put source current) := by
  cases field <;> cases other <;> first | exact absurd rfl apart | simp only [Same, put, and_self]

theorem count_put (source current : Segment) (field : Field) :
    (field.put source current).count = current.count := by
  cases field <;> rfl

theorem absent_iff {segment : Segment} {field : Field} :
    field.Absent segment ↔ field.Same {} segment := by
  cases field <;> simp only [Absent, Same, eq_comm]

end Field

theorem segment_ext {first second : Segment} (same : ∀ field : Field, field.Same first second)
    (count : first.count = second.count) : first = second := by
  obtain ⟨sameFile, samePath⟩ := same .file
  have sameStart : first.start = second.start := same .start
  have sameLast : first.last = second.last := same .last
  have sameEnabled : first.enabled = second.enabled := same .enabled
  have sameType : first.readonly = second.readonly := same .type
  have sameFill : first.fill = second.fill := same .fill
  have sameData : first.data = second.data := same .data
  cases first
  cases second
  simp_all only

variable {setting : Setting} {current next : Segment} {field : Field} {text : Text.CodeText}

/-- Storing a text puts in what it says. -/
theorem store_eq_ok : store setting current field text = .ok next ↔
    ∃ source, field.Reads setting text source ∧ next = field.put source current := by
  cases field with
  | start =>
    refine (Scan.converted_unsigned_eq_ok (by decide)).trans ⟨?_, ?_⟩
    · rintro ⟨value, denotes, same⟩
      exact ⟨{ start := some (value : Int) }, ⟨value, denotes, rfl⟩, same⟩
    · rintro ⟨source, ⟨value, denotes, held⟩, same⟩
      exact ⟨value, denotes, by rw [same, Field.put, held]⟩
  | last =>
    refine (Scan.converted_unsigned_eq_ok (by decide)).trans ⟨?_, ?_⟩
    · rintro ⟨value, denotes, same⟩
      exact ⟨{ last := some (value : Int) }, ⟨value, denotes, rfl⟩, same⟩
    · rintro ⟨source, ⟨value, denotes, held⟩, same⟩
      exact ⟨value, denotes, by rw [same, Field.put, held]⟩
  | enabled =>
    refine (Scan.converted_pair_eq_ok Scan.boolean_eq_ok).trans ⟨?_, ?_⟩
    · rintro (⟨yes, same⟩ | ⟨no, same⟩)
      · exact ⟨{ enabled := some true }, Or.inl ⟨yes, rfl⟩, same⟩
      · exact ⟨{ enabled := some false }, Or.inr ⟨no, rfl⟩, same⟩
    · rintro ⟨source, ⟨yes, held⟩ | ⟨no, held⟩, same⟩
      · exact Or.inl ⟨yes, by rw [same, Field.put, held]⟩
      · exact Or.inr ⟨no, by rw [same, Field.put, held]⟩
  | type =>
    refine (Scan.converted_pair_eq_ok Scan.memoryType_eq_ok).trans ⟨?_, ?_⟩
    · rintro (⟨ram, same⟩ | ⟨rom, same⟩)
      · exact ⟨{ readonly := some false }, Or.inl ⟨ram, rfl⟩, same⟩
      · exact ⟨{ readonly := some true }, Or.inr ⟨rom, rfl⟩, same⟩
    · rintro ⟨source, ⟨ram, held⟩ | ⟨rom, held⟩, same⟩
      · exact Or.inl ⟨ram, by rw [same, Field.put, held]⟩
      · exact Or.inr ⟨rom, by rw [same, Field.put, held]⟩
  | fill =>
    refine (Scan.converted_unsigned_eq_ok (by decide)).trans ⟨?_, ?_⟩
    · rintro ⟨value, denotes, same⟩
      exact ⟨{ fill := some (value : Int) }, ⟨value, denotes, rfl⟩, same⟩
    · rintro ⟨source, ⟨value, denotes, held⟩, same⟩
      exact ⟨value, denotes, by rw [same, Field.put, held]⟩
  | data =>
    simp only [store, Field.Reads, Field.put]
    split
    · rename_i blank
      simp [blank]
    · rename_i given
      cases form : text.utf8? with
      | none => simp
      | some bytes =>
        constructor
        · intro stored
          cases stored
          exact ⟨{ data := some bytes }, ⟨given, bytes, rfl, rfl⟩, rfl⟩
        · rintro ⟨source, ⟨_, other, same, held⟩, rfl⟩
          cases same
          rw [held]
  | file =>
    simp only [store, Field.Reads, Field.put]
    split
    · rename_i blank
      simp [blank]
    · rename_i given
      constructor
      · intro stored
        cases stored
        exact ⟨{ file := some text, path := some (setting.resolve text) }, ⟨given, rfl, rfl⟩, rfl⟩
      · rintro ⟨source, ⟨_, heldFile, heldPath⟩, same⟩
        rw [same, heldFile, heldPath]

/-- A number with more digits than can be converted and data without a UTF-8 form are all that a
value can be met with a defect for. -/
theorem store_eq_defect {cause : Defect} :
    store setting current field text = .error (.defect cause) ↔ field.Stops text cause := by
  have injective : Function.Injective MemoryMapError.defect :=
    fun _ _ => MemoryMapError.defect.inj
  have other : ∀ cause, MemoryMapError.badValue field text ≠ .defect cause := nofun
  have number {maximum : Nat} {put : Nat → Segment} :=
    @Scan.converted_unsigned_eq_defect _ _ maximum text MemoryMapError.defect _ put cause injective
      other
  have none {scan : String → Except ScanError Bool} {put : Bool → Segment}
      (own : ∀ plain, scan plain ≠ .error (.defect cause)) :
      Scan.converted scan text MemoryMapError.defect (.badValue field text) put =
        .error (.defect cause) ↔ False :=
    iff_of_false (Scan.converted_ne_defect injective other own) not_false
  cases field with
  | start | last | fill => exact number
  | enabled => exact none fun _ => Scan.boolean_ne_defect
  | type => exact none fun _ => Scan.map_choice_ne_defect
  | data =>
    simp only [store, Field.Stops]
    split
    · rename_i blank
      have plain : text.IsPlain := ⟨"", blank⟩
      simp [plain]
    · rw [← Text.CodeText.utf8?_eq_none]
      cases text.utf8? <;> simp [eq_comm]
  | file =>
    simp only [store, Field.Stops, iff_false]
    split <;> nofun

end MemoryBoard.MemoryMap
