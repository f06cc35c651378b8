import MemoryBoard.Proofs.MemoryMap.Building
import MemoryBoard.Proofs.Text.HexNumeral

set_option autoImplicit false

namespace MemoryBoard

open Text

/-- The line about a segment begins with its first and its last address. -/
theorem Segment.summary_eq {segment : Segment} {first : Int} (start : segment.start = some first) :
    ∃ rest, segment.summary = CodeText.ofString ("0x" ++ hexNumber 4 first ++ "-0x" ++
      hexNumber 4 (first + segment.count - 1) ++ " ") ++ rest := by
  unfold Segment.summary
  rw [start, Option.getD_some]
  simp only [List.cons_append, List.nil_append, String.intercalate_cons_cons]
  rw [CodeText.ofString_append, List.append_assoc]
  exact ⟨_, rfl⟩

namespace MemoryMap

open Document Yaml

variable {directory : Option Path} {setting : Setting} {state : State} {segment : Segment}
  {first : Int}

/-- Whether the file of a segment is there and has no bytes. -/
def EmptyFile (setting : Setting) (segment : Segment) : Prop :=
  ∃ path, segment.path = some path ∧ setting.size path = .ok 0

/-- A segment from a first to a last address, both of them listed in four digits. -/
structure Ranges (segment : Segment) (first last : Nat) : Prop where
  start : segment.start = some (first : Int)
  count : segment.count = (last : Int) - first + 1
  order : first ≤ last
  bound : last ≤ 0xffff
  listed : ∃ firstText lastText rest, IsHexField 4 firstText first ∧
    IsHexField 4 lastText last ∧ segment.summary = CodeText.ofString
      ("0x" ++ String.ofList firstText ++ "-0x" ++ String.ofList lastText ++ " ") ++ rest

/-- A segment without addresses. What is listed as its last one lies in front of its first. -/
structure Hollow (segment : Segment) (first : Nat) : Prop where
  start : segment.start = some (first : Int)
  count : segment.count = 0
  bound : first ≤ 0xffff
  listed : ∃ firstText rest, IsHexField 4 firstText first ∧ segment.summary = CodeText.ofString
    ("0x" ++ String.ofList firstText ++ "-0x" ++ hexNumber 4 ((first : Int) - 1) ++ " ") ++ rest

theorem Consistent.takeAll_tidy (consistent : Consistent directory state)
    (tidy : ∀ segment ∈ state.segments, Tidy segment) (history : List Occasion) :
    ∀ segment ∈ (Document.takeAll (feedAt directory) state history).segments, Tidy segment := by
  have keeps (state : State) (occasion : Occasion)
      (both : Consistent directory state ∧ ∀ segment ∈ state.segments, Tidy segment) :
      Consistent directory (feedAt directory state occasion).1 ∧
        ∀ segment ∈ (feedAt directory state occasion).1.segments, Tidy segment := by
    obtain ⟨consistent, tidy⟩ := both
    refine ⟨consistent.take occasion, ?_⟩
    rcases consistent.take_segments occasion with ⟨_, grown, _⟩ | ⟨_, kept⟩
    · rw [grown]
      intro segment member
      rcases Array.mem_push.mp member with old | new
      · exact tidy segment old
      · rw [new]
        exact (consistent.take occasion).tidy
    · rw [kept]
      exact tidy
  exact (takeAll_invariant keeps ⟨consistent, tidy⟩).2

theorem consume_tidy (setting : Setting) (events : List Event) :
    ∀ segment ∈ (consume setting .initial events).1.segments, Tidy segment := by
  obtain ⟨history, _, same⟩ := consume_takeAll setting .initial events
  have start : Consistent setting.directory .initial := .initial
  rw [same]
  exact start.takeAll_tidy (by simp [State.initial]) history

theorem Sound.count_of_emptyFile (sound : Sound setting segment first)
    (empty : EmptyFile setting segment) : segment.count = 0 := by
  obtain ⟨path, located, none⟩ := empty
  rcases sound.measured with ⟨bytes, given, _⟩ | ⟨other, size, found, sized, count⟩ |
    ⟨_, nowhere, _⟩
  · have named : segment.file.isSome := by
      rw [sound.located, Option.map_eq_some_iff] at located
      obtain ⟨file, named, _⟩ := located
      rw [named]
      rfl
    exact absurd ⟨by rw [given]; rfl, named⟩ sound.single
  · rw [located] at found
    cases found
    rw [none] at sized
    cases sized
    exact count
  · rw [located] at nowhere
    cases nowhere

theorem Sound.count_pos (sound : Sound setting segment first) (tidy : Tidy segment)
    (filled : ¬ EmptyFile setting segment) : 1 ≤ segment.count := by
  rcases sound.measured with ⟨bytes, given, count⟩ | ⟨path, size, found, sized, count⟩ |
    ⟨_, _, last, given, count⟩
  · have nonempty : bytes ≠ [] := by
      intro empty
      rw [empty] at given
      exact tidy.1 given
    have some := List.length_pos_iff.mpr nonempty
    omega
  · have some : size ≠ 0 := by
      intro none
      rw [none] at sized
      exact filled ⟨path, found, sized⟩
    omega
  · have order := sound.order last given
    omega

theorem isHexField_address {address : Nat} (bound : address ≤ 0xffff) :
    IsHexField 4 (hexField 4 address) address :=
  isHexField_hexField (by decide) (show address < 65536 by omega)

theorem Sound.hollow (sound : Sound setting segment first) (empty : EmptyFile setting segment) :
    ∃ address, Hollow segment address := by
  obtain ⟨address, rfl⟩ := Int.eq_ofNat_of_zero_le sound.first_bounds.1
  have bound := sound.first_bounds.2
  have count := sound.count_of_emptyFile empty
  obtain ⟨rest, summary⟩ := Segment.summary_eq sound.start
  rw [count, Int.add_zero, hexNumber_natCast] at summary
  exact ⟨address, sound.start, count, by omega, _, rest, isHexField_address (by omega), summary⟩

theorem Sound.ranges (sound : Sound setting segment first) (some : 1 ≤ segment.count) :
    ∃ address last, Ranges segment address last := by
  obtain ⟨address, rfl⟩ := Int.eq_ofNat_of_zero_le sound.first_bounds.1
  have inside := sound.inside
  have bound := sound.first_bounds.2
  obtain ⟨last, ends⟩ := Int.eq_ofNat_of_zero_le (show 0 ≤ address + segment.count - 1 by omega)
  obtain ⟨rest, summary⟩ := Segment.summary_eq sound.start
  rw [ends, hexNumber_natCast, hexNumber_natCast] at summary
  refine ⟨address, last, sound.start, by omega, by omega, by omega, _, _, rest, ?_, ?_, summary⟩
  · exact isHexField_address (by omega)
  · exact isHexField_address (by omega)

/-- A segment of a memory map is a range of addresses, and is listed as that, unless its file is
empty: then it has no address at all. -/
theorem consume_ranges (setting : Setting) (events : List Event) :
    ∀ segment ∈ (consume setting .initial events).1.segments,
      (¬ EmptyFile setting segment → ∃ first last, Ranges segment first last) ∧
        (EmptyFile setting segment → ∃ first, Hollow segment first) := by
  intro segment member
  obtain ⟨first, sound⟩ := consume_sound setting events segment member
  have tidy := consume_tidy setting events segment member
  exact ⟨fun filled => sound.ranges (sound.count_pos tidy filled), sound.hollow⟩

/-- One byte at the last address, and an empty file behind it. -/
theorem consume_ranges_top :
    let size (path : Path) : Except FileError Nat :=
      if path = .ofText "empty.bin" then .ok 0 else .ok 1
    let scalars (texts : List String) : List Event :=
      texts.map fun text : String => ⟨.scalar, some text, none⟩
    let plain (kind : EventKind) : Event := ⟨kind, none, none⟩
    let document (texts : List String) : List Event :=
      [plain .documentStart, plain .mappingStart] ++ scalars texts ++
        [plain .mappingEnd, plain .documentEnd]
    let events := [plain .streamStart] ++ document ["start", "0xffff", "file", "rom.bin"] ++
      document ["start", "0xffff", "file", "empty.bin"] ++ [plain .streamEnd]
    let setting : Setting := ⟨none, size⟩
    let state := (consume setting .initial events).1
    (consume setting .initial events).2 = none ∧
      ∃ byte ∈ state.segments, ∃ empty ∈ state.segments,
        Ranges byte 0xffff 0xffff ∧ Hollow empty 0xffff := by
  intro size scalars plain document events setting state
  let byte : Segment :=
    { start := some 0xffff, file := some "rom.bin", path := some (.ofText "rom.bin"), count := 1 }
  let empty : Segment :=
    { start := some 0xffff, file := some "empty.bin", path := some (.ofText "empty.bin") }
  have segments : state.segments = #[byte, empty] := by decide +kernel
  have byteMember : byte ∈ state.segments := by simp [segments]
  have emptyMember : empty ∈ state.segments := by simp [segments]
  refine ⟨by decide +kernel, byte, byteMember, empty, emptyMember, ?_, ?_⟩
  · have filled : ¬ EmptyFile setting byte := by
      rintro ⟨path, located, none⟩
      cases located
      have one : size (.ofText "rom.bin") = .ok 1 := if_neg (by decide +kernel)
      cases one.symm.trans none
    obtain ⟨first, last, ranges⟩ := (consume_ranges setting events byte byteMember).1 filled
    have start : (0xffff : Int) = first := Option.some.inj ranges.start
    have count : (1 : Int) = last - first + 1 := ranges.count
    obtain rfl : first = 0xffff := by omega
    obtain rfl : last = 0xffff := by omega
    exact ranges
  · have zero : size (.ofText "empty.bin") = .ok 0 := if_pos rfl
    have none : EmptyFile setting empty := ⟨_, rfl, zero⟩
    obtain ⟨first, hollow⟩ := (consume_ranges setting events empty emptyMember).2 none
    have start : (0xffff : Int) = first := Option.some.inj hollow.start
    obtain rfl : first = 0xffff := by omega
    exact hollow

/-- At address 0 the last address of an empty file is listed as a negative number. -/
theorem consume_empty :
    let scalar (text : String) : Event := ⟨.scalar, some text, none⟩
    let plain (kind : EventKind) : Event := ⟨kind, none, none⟩
    let events := [plain .streamStart, plain .documentStart, plain .mappingStart,
      scalar "start", scalar "0", scalar "file", scalar "empty.bin", plain .mappingEnd,
      plain .documentEnd, plain .streamEnd]
    let result := consume ⟨none, fun _ => .ok 0⟩ .initial events
    result.2 = none ∧
      result.1.segments.toList.map (fun segment => (segment.count, segment.summary)) =
        [(0, ("0x0000-0x-001 count=0 file=empty.bin" : CodeText))] := by
  decide +kernel

end MemoryMap

end MemoryBoard
