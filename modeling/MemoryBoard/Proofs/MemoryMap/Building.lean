import MemoryBoard.Proofs.MemoryMap.Invariant
import MemoryBoard.Proofs.MemoryMap.Layout

set_option autoImplicit false

namespace MemoryBoard

namespace Layout

/-- Whether a step puts bytes into the data of the addresses from `first` on, whatever the image,
and does nothing else. -/
def PutsIn (step : Image → Except LayoutError Image) (first : Int) (bytes : Bytes) : Prop :=
  ∀ image, ∃ result, step image = .ok result ∧ ∀ address : Nat,
    result.attributeAt address = image.attributeAt address ∧
      result.dataAt address =
        if first ≤ address ∧ address < first + bytes.length then
          bytes[(address - first).toNat]?.getD 0
        else image.dataAt address

/-- Whether a step sets the attribute of `count` addresses from `first` on, whatever the image, and
does nothing else. -/
def Marks (step : Image → Except LayoutError Image) (first count : Int) (access : Access) : Prop :=
  ∀ image, ∃ result, step image = .ok result ∧ ∀ address : Nat,
    result.dataAt address = image.dataAt address ∧
      result.attributeAt address =
        if first ≤ address ∧ address < first + count then access.byte
        else image.attributeAt address

/-- The bytes that a segment comes with, its own ones or those of its file. -/
def Holds (files : Setting) (segment : Segment) (bytes : Bytes) : Prop :=
  segment.data = some bytes ∨
    ∃ file, segment.file = some file ∧ files.content (files.pathOf segment file) = .ok bytes

/-- A segment whose bytes go to the addresses that it sets the attribute of, up to its end at
most. -/
structure Settles (files : Setting) (segment : Segment) (first : Int) (bytes : Bytes) : Prop where
  start : segment.start = some first
  holds : Holds files segment bytes
  length : (bytes.length : Int) = segment.count
  inside : 0 ≤ first ∧ first + segment.count ≤ 0x10000
  within : ∀ last, segment.last = some last → first + segment.count - 1 ≤ last
  data : PutsIn (fun image => placeData segment image >>= placeFile files segment) first bytes
  access : ∀ head, Marks (placeAccess segment head) first segment.count (accessOf segment head)

variable {files : Setting} {segment : Segment} {first : Int} {bytes : Bytes}

theorem Placeable.putsIn (placeable : Placeable files segment first)
    (single : ¬ (segment.data.isSome ∧ segment.file.isSome)) (holds : Holds files segment bytes) :
    PutsIn (fun image => placeData segment image >>= placeFile files segment) first bytes := by
  intro image
  rcases holds with given | ⟨file, named, content⟩
  · have unnamed : segment.file = none := by
      rw [given] at single
      simpa using single
    obtain ⟨result, placed⟩ :=
      (placeData_isOk image placeable.start placeable.count).mpr placeable.data
    refine ⟨result,
      bind_eq_ok.mpr ⟨result, placed, placeFile_eq_ok.mpr (Or.inl ⟨unnamed, rfl⟩)⟩,
      fun address => ?_⟩
    obtain ⟨data, access⟩ := placeData_at address placed
    have run : dataAt? address segment = runAt? first bytes address := by
      simp only [dataAt?, placeable.start, given, Option.bind_eq_bind, Option.bind_some]
    rw [data, run, getD_runAt?]
    exact ⟨access, rfl⟩
  · have bare : segment.data = none := by
      rw [named] at single
      simpa using single
    obtain ⟨result, placed⟩ := (placeFile_isOk image placeable.start).mpr placeable.file
    have nothing : placeData segment image = .ok image :=
      placeData_eq_ok.mpr (Or.inl ⟨by rw [bare]; rfl, rfl⟩)
    refine ⟨result, bind_eq_ok.mpr ⟨image, nothing, placed⟩, fun address => ?_⟩
    obtain ⟨data, access⟩ := placeFile_at address placed
    have run : fileAt? files address segment = runAt? first bytes address := by
      simp only [fileAt?, placeable.start, named, content, Except.toOption, Option.bind_eq_bind,
        Option.bind_some]
    rw [data, run, getD_runAt?]
    exact ⟨access, rfl⟩

theorem Placeable.marks (placeable : Placeable files segment first) (head : Bool) :
    Marks (placeAccess segment head) first segment.count (accessOf segment head) := by
  intro image
  obtain ⟨result, done⟩ : ∃ result, image.setAttributes first segment.count
      (accessOf segment head).byte.toNat = .ok result :=
    Image.setAttributes_isOk.mpr placeable.count
  refine ⟨result, placeAccess_eq_ok.mpr ⟨first, placeable.start, done⟩, fun address => ?_⟩
  rw [Image.attributeAt_setAttributes done, attributeByte_byte]
  exact ⟨Image.dataAt_setAttributes done address, rfl⟩

end Layout

namespace MemoryMap

open Document Yaml

variable {setting : Setting} {files : Layout.Setting} {segment : Segment} {first : Int}
  {bytes : Bytes}

/-- Whether the file of a segment is as long as it was said to be. -/
def FileKept (setting : Setting) (files : Layout.Setting) (segment : Segment) : Prop :=
  ∀ path, segment.path = some path → ∃ content,
    files.content path = .ok content ∧ setting.size path = .ok content.length

/-- The state that a reader ends in is one that it comes to event by event. -/
theorem consume_takeAll (setting : Setting) (state : State) (events : List Event) :
    ∃ history : List Occasion, (∀ occasion ∈ history, occasion.size = setting.size) ∧
      (consume setting state events).1 = takeAll (feedAt setting.directory) state history := by
  unfold consume
  induction events generalizing state with
  | nil => exact ⟨[], by simp, rfl⟩
  | cons event rest ih =>
    have here : (feedAt setting.directory state ⟨setting.size, event⟩) = feed setting state event :=
      rfl
    rw [Document.consume]
    rcases fed : feed setting state event with ⟨next, outcome⟩
    have alone : next = takeAll (feedAt setting.directory) state [⟨setting.size, event⟩] := by
      rw [takeAll_cons, takeAll_nil, here, fed]
    cases outcome with
    | some error => exact ⟨[⟨setting.size, event⟩], by simp, alone⟩
    | none =>
      by_cases stopped : next.done = true
      · simp only [stopped, ↓reduceIte]
        exact ⟨[⟨setting.size, event⟩], by simp, alone⟩
      · simp only [stopped, Bool.false_eq_true, ↓reduceIte]
        obtain ⟨history, sized, same⟩ := ih next
        refine ⟨⟨setting.size, event⟩ :: history, List.forall_mem_cons.mpr ⟨rfl, sized⟩, ?_⟩
        rw [takeAll_cons, here, fed]
        exact same

/-- All segments that are read are sound, even where reading fails behind them. -/
theorem consume_sound (setting : Setting) (events : List Event) :
    ∀ segment ∈ (consume setting .initial events).1.segments,
      ∃ first, Sound setting segment first := by
  obtain ⟨history, sized, same⟩ := consume_takeAll setting .initial events
  have start : Consistent setting.directory .initial := .initial
  obtain ⟨added, collected, sound⟩ := start.takeAll_segments history
  rw [same]
  intro segment member
  rw [← Array.mem_toList_iff, collected] at member
  obtain ⟨occasion, among, _, first, holds⟩ := sound segment member
  rw [Occasion.setting, sized occasion among] at holds
  exact ⟨first, holds⟩

/-- The path of a sound segment with a file is where the file is looked for. -/
theorem Sound.path_eq (sound : Sound setting segment first) (files : Layout.Setting)
    {file : Text.CodeText} (named : segment.file = some file) :
    segment.path = some (files.pathOf segment file) := by
  have located := sound.located
  rw [named, Option.map_some] at located
  rw [Layout.Setting.pathOf, located]

/-- As many bytes as a segment takes addresses come with it, be they its own or those of its
file. -/
theorem Sound.length_eq (sound : Sound setting segment first)
    (kept : FileKept setting files segment) (holds : Layout.Holds files segment bytes) :
    (bytes.length : Int) = segment.count := by
  rcases holds with given | ⟨file, named, content⟩
  · rcases sound.measured with ⟨other, same, count⟩ | ⟨path, _, found, _⟩ | ⟨absent, _⟩
    · rw [given] at same
      cases same
      exact count.symm
    · have named : segment.file.isSome := by
        rw [sound.located, Option.map_eq_some_iff] at found
        obtain ⟨file, named, _⟩ := found
        rw [named]
        rfl
      exact absurd ⟨by rw [given]; rfl, named⟩ sound.single
    · rw [given] at absent
      cases absent
  · have located := sound.path_eq files named
    obtain ⟨other, there, sized⟩ := kept _ located
    rw [content] at there
    cases there
    rcases sound.measured with ⟨_, given, _⟩ | ⟨path, size, found, measured, count⟩ | ⟨_, none, _⟩
    · exact absurd ⟨by rw [given]; rfl, by rw [named]; rfl⟩ sound.single
    · rw [located] at found
      cases found
      rw [sized] at measured
      cases measured
      exact count.symm
    · rw [located] at none
      cases none

/-- The file of a segment is there if it is where its name leads. -/
theorem Sound.exists_content (sound : Sound setting segment first)
    (kept : FileKept setting files segment) {file : Text.CodeText}
    (named : segment.file = some file) :
    ∃ content, files.content (files.pathOf segment file) = .ok content := by
  obtain ⟨content, there, _⟩ := kept _ (sound.path_eq files named)
  exact ⟨content, there⟩

theorem Sound.count_nonneg (sound : Sound setting segment first) : 0 ≤ segment.count := by
  rcases sound.measured with ⟨_, _, count⟩ | ⟨_, _, _, _, count⟩ | ⟨_, _, last, given, count⟩
  · omega
  · omega
  · have := sound.order last given
    omega

/-- All parts of a sound segment lie in the address space. -/
theorem Sound.placeable (sound : Sound setting segment first)
    (kept : FileKept setting files segment) : Layout.Placeable files segment first := by
  have inside := sound.inside
  have positive := sound.first_bounds.1
  have covers : Image.Covers first segment.count := ⟨positive, sound.count_nonneg, inside⟩
  refine ⟨sound.start, ?_, ?_, ?_, covers⟩
  · intro fill filled
    obtain ⟨last, given⟩ := Option.isSome_iff_exists.mp (sound.filled (by rw [filled]; rfl))
    have order := sound.order last given
    have bound := sound.last_le last given
    refine ⟨last, given, positive, ?_, ?_⟩
    · omega
    · unfold addressCount
      omega
  · intro bytes given
    rw [sound.length_eq kept (Or.inl given)]
    exact covers
  · intro file named
    obtain ⟨content, there⟩ := sound.exists_content kept named
    refine ⟨content, there, ?_⟩
    rw [sound.length_eq kept (Or.inr ⟨file, named, there⟩)]
    exact covers

/-- Bytes that come with a sound segment settle where it sets the attribute. -/
theorem Sound.settles (sound : Sound setting segment first)
    (kept : FileKept setting files segment) (holds : Layout.Holds files segment bytes) :
    Layout.Settles files segment first bytes where
  start := sound.start
  holds := holds
  length := sound.length_eq kept holds
  inside := ⟨sound.first_bounds.1, sound.inside⟩
  within last given := by
    have := sound.within last given
    omega
  data := (sound.placeable kept).putsIn sound.single holds
  access := (sound.placeable kept).marks

end MemoryMap

end MemoryBoard
