import MemoryBoard.Scan.Choice

set_option autoImplicit false

namespace MemoryBoard.Scan

open Text

section

variable {α β ε : Type} {scan : String → Except ScanError α} {text : CodeText}
  {ofDefect : Defect → ε} {error failure : ε} {put : α → β}

/-- A reader that puts in what a scan gives succeeds if the text is plain and the scan takes it. -/
theorem converted_eq_ok {next : β} : converted scan text ofDefect error put = .ok next ↔
    ∃ (plain : String) (value : α), text = plain ∧ scan plain = .ok value ∧ next = put value := by
  unfold converted
  constructor
  · intro read
    split at read
    · rename_i value given
      obtain ⟨plain, same, scanned⟩ := Option.map_eq_some_iff.mp given
      cases read
      exact ⟨plain, value, CodeText.string?_eq_some.mp same, scanned, rfl⟩
    · cases read
    · cases read
  · rintro ⟨plain, value, rfl, scanned, rfl⟩
    rw [CodeText.string?_ofString, Option.map_some, scanned]

/-- It meets a defect if the scan does. -/
theorem converted_eq_defect {cause : Defect} (injective : Function.Injective ofDefect)
    (other : ∀ cause, error ≠ ofDefect cause) :
    converted scan text ofDefect error put = .error (ofDefect cause) ↔
      ∃ plain : String, text = plain ∧ scan plain = .error (.defect cause) := by
  unfold converted
  constructor
  · intro failed
    split at failed
    · cases failed
    · rename_i met given
      obtain ⟨plain, same, scanned⟩ := Option.map_eq_some_iff.mp given
      rw [injective (Except.error.inj failed)] at scanned
      exact ⟨plain, CodeText.string?_eq_some.mp same, scanned⟩
    · exact absurd (Except.error.inj failed) (other cause)
  · rintro ⟨plain, rfl, scanned⟩
    rw [CodeText.string?_ofString, Option.map_some, scanned]

theorem converted_ne_defect {cause : Defect} (injective : Function.Injective ofDefect)
    (other : ∀ cause, error ≠ ofDefect cause) (own : ∀ plain, scan plain ≠ .error (.defect cause)) :
    converted scan text ofDefect error put ≠ .error (ofDefect cause) := by
  intro failed
  obtain ⟨plain, _, met⟩ := (converted_eq_defect injective other).mp failed
  exact own plain met

/-- A reader of one word or another. -/
theorem converted_pair_eq_ok {first second : String} {one other : α} {next : β}
    (pair : ∀ {plain value}, scan plain = .ok value ↔
      plain = first ∧ value = one ∨ plain = second ∧ value = other) :
    converted scan text ofDefect error put = .ok next ↔
      text = first ∧ next = put one ∨ text = second ∧ next = put other := by
  rw [converted_eq_ok]
  constructor
  · rintro ⟨plain, value, rfl, scanned, rfl⟩
    rcases pair.mp scanned with ⟨rfl, rfl⟩ | ⟨rfl, rfl⟩
    · exact Or.inl ⟨rfl, rfl⟩
    · exact Or.inr ⟨rfl, rfl⟩
  · rintro (⟨same, put⟩ | ⟨same, put⟩)
    · exact ⟨first, one, same, pair.mpr (Or.inl ⟨rfl, rfl⟩), put⟩
    · exact ⟨second, other, same, pair.mpr (Or.inr ⟨rfl, rfl⟩), put⟩

end

variable {text : String}

theorem boolean_eq_ok {value : Bool} : boolean text = .ok value ↔
    text = "true" ∧ value = true ∨ text = "false" ∧ value = false := by
  unfold boolean
  split
  · rename_i yes
    subst yes
    simp [eq_comm]
  · rename_i notTrue
    split
    · rename_i no
      subst no
      simp [eq_comm]
    · rename_i notFalse
      simp [notTrue, notFalse]

theorem boolean_ne_defect {cause : Defect} : boolean text ≠ .error (.defect cause) := by
  unfold boolean
  split
  · nofun
  · split <;> nofun

theorem choice_ne_defect {table : List String} {cause : Defect} :
    choice table text ≠ .error (.defect cause) := by
  unfold choice
  split <;> nofun

theorem map_choice_ne_defect {table : List String} {α : Type} {f : Nat → α} {cause : Defect} :
    (choice table text).map f ≠ .error (.defect cause) := by
  have own := @choice_ne_defect text table cause
  cases chosen : choice table text with
  | ok index => nofun
  | error error =>
    rintro ⟨⟩
    exact own chosen

theorem choice_pair_eq_ok {first second : String} {index : Nat} (apart : first ≠ second) :
    choice [first, second] text = .ok index ↔
      text = first ∧ index = 0 ∨ text = second ∧ index = 1 := by
  unfold choice
  rw [List.findIdx?_cons, List.findIdx?_cons, List.findIdx?_nil]
  by_cases isFirst : first = text
  · subst isFirst
    simp [apart, eq_comm]
  · by_cases isSecond : second = text
    · subst isSecond
      simp [isFirst, Ne.symm isFirst, @eq_comm Nat 1]
    · simp [isFirst, isSecond, Ne.symm isFirst, Ne.symm isSecond]

theorem exists_choice_eq_ok {table : List String} :
    (∃ index, choice table text = .ok index) ↔ text ∈ table := by
  unfold choice
  constructor
  · intro ⟨index, chosen⟩
    split at chosen
    · rename_i position found
      have inside : (table.findIdx? (· == text)).isSome = true := by rw [found]; rfl
      rw [List.findIdx?_isSome, List.any_eq_true] at inside
      obtain ⟨word, member, same⟩ := inside
      rwa [← eq_of_beq same]
    · cases chosen
  · intro member
    have inside : (table.findIdx? (· == text)).isSome = true := by
      rw [List.findIdx?_isSome, List.any_eq_true]
      exact ⟨text, member, beq_self_eq_true text⟩
    obtain ⟨index, found⟩ := Option.isSome_iff_exists.mp inside
    exact ⟨index, by rw [found]⟩

theorem countryCode_eq_ok {value : String} :
    countryCode text = .ok value ↔ text ∈ countryCodes ∧ value = text := by
  rw [← exists_choice_eq_ok, countryCode]
  cases choice countryCodes text <;> simp [Except.map, eq_comm]

theorem videoSystem_eq_ok {value : Nat} : videoSystem text = .ok value ↔
    text = "ntsc" ∧ value = 0 ∨ text = "pal" ∧ value = 1 :=
  choice_pair_eq_ok (by decide)

theorem memoryType_eq_ok {value : Bool} : memoryType text = .ok value ↔
    text = "ram" ∧ value = false ∨ text = "rom" ∧ value = true := by
  have chosen (index : Nat) : choice memoryTypes text = .ok index ↔
      text = "ram" ∧ index = 0 ∨ text = "rom" ∧ index = 1 := choice_pair_eq_ok (by decide)
  unfold memoryType
  constructor
  · intro scanned
    cases found : choice memoryTypes text with
    | error error =>
      rw [found] at scanned
      cases scanned
    | ok index =>
      rw [found] at scanned
      cases scanned
      rcases (chosen index).mp found with ⟨ram, zero⟩ | ⟨rom, one⟩
      · exact Or.inl ⟨ram, by rw [zero]; rfl⟩
      · exact Or.inr ⟨rom, by rw [one]; rfl⟩
  · intro either
    rcases either with ⟨ram, same⟩ | ⟨rom, same⟩
    · rw [(chosen 0).mpr (Or.inl ⟨ram, rfl⟩), same]
      rfl
    · rw [(chosen 1).mpr (Or.inr ⟨rom, rfl⟩), same]
      rfl

end MemoryBoard.Scan
