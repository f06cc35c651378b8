import MemoryBoard.Memory.View
import MemoryBoard.MemoryMap.Layout
import MemoryBoard.Proofs.Except
import MemoryBoard.Proofs.Latest

set_option autoImplicit false

namespace MemoryBoard.Layout

/-- What a run of bytes from `first` on has at an address. -/
def runAt? (first : Int) (bytes : Bytes) (address : Nat) : Option UInt8 :=
  if first ≤ address then bytes[(address - first).toNat]? else none

/-- The byte that the fill of a segment gives to an address from its start to its end. -/
def fillAt? (address : Nat) (segment : Segment) : Option UInt8 := do
  let first ← segment.start
  let last ← segment.last
  let fill ← segment.fill
  if first ≤ address ∧ address ≤ last then some (Image.dataByte fill) else none

def dataAt? (address : Nat) (segment : Segment) : Option UInt8 := do
  runAt? (← segment.start) (← segment.data) address

def fileAt? (setting : Setting) (address : Nat) (segment : Segment) : Option UInt8 := do
  let content ← (setting.content (setting.pathOf segment (← segment.file))).toOption
  runAt? (← segment.start) content address

/-- The byte that a segment gives to an address: that of its file, or else of its data, or else its
fill. -/
def byteAt? (setting : Setting) (address : Nat) (segment : Segment) : Option UInt8 :=
  (fileAt? setting address segment).or ((dataAt? address segment).or (fillAt? address segment))

/-- How the board answers at an address that a segment lies over. Where that is left open it is
disabled, and read-only if the segment is the first of all. -/
def accessAt? (address : Nat) : Segment × Nat → Option Access
  | (segment, index) => do
    let first ← segment.start
    if first ≤ address ∧ address < first + segment.count then
      some ⟨segment.enabled.getD false, segment.readonly.getD (index == 0)⟩
    else none

variable {setting : Setting} {segment : Segment} {segments : List Segment} {image result : Image}

theorem needed_eq_ok {address : Option Int} {value : Int} :
    needed address = .ok value ↔ address = some value := by
  cases address <;> simp [needed]

theorem onImage_eq_ok {α : Type} {outcome : Except ImageError α} {value : α} :
    onImage outcome = .ok value ↔ outcome = .ok value := by
  cases outcome with
  | error error =>
    constructor
    · intro impossible
      cases impossible
    · intro impossible
      cases impossible
  | ok other =>
    constructor
    · intro same
      cases same
      rfl
    · intro same
      cases same
      rfl

theorem placeFill_eq_ok : placeFill segment image = .ok result ↔
    segment.fill = none ∧ result = image ∨
      ∃ fill first last, segment.fill = some fill ∧ segment.start = some first ∧
        segment.last = some last ∧ image.fillData first last fill = .ok result := by
  unfold placeFill
  cases segment.fill with
  | none => simp [eq_comm]
  | some fill => simp [bind_eq_ok, needed_eq_ok, onImage_eq_ok]

theorem placeData_eq_ok : placeData segment image = .ok result ↔
    segment.data.getD [] = [] ∧ result = image ∨
      ∃ bytes first, segment.data = some bytes ∧ bytes ≠ [] ∧ segment.start = some first ∧
        image.writeData first bytes = .ok result := by
  unfold placeData
  cases segment.data with
  | none => simp [eq_comm]
  | some bytes =>
    cases bytes with
    | nil => simp [eq_comm]
    | cons byte rest => simp [bind_eq_ok, needed_eq_ok, onImage_eq_ok]

/-- The bytes from a file are all that it holds. -/
theorem payload_eq_ok {file : Text.CodeText} {bytes : Bytes} :
    payload setting segment file = .ok bytes ↔
      setting.content (setting.pathOf segment file) = .ok bytes ∧
        ∃ first, segment.start = some first ∧ first + bytes.length ≤ addressCount := by
  unfold payload
  cases setting.content (setting.pathOf segment file) with
  | error error => cases error <;> simp
  | ok content =>
    simp only [bind_eq_ok, needed_eq_ok, Except.ok.injEq]
    constructor
    · intro ⟨first, given, taken, clipped, fits⟩
      split at fits
      · cases fits
      rename_i room
      cases fits
      unfold clip at clipped
      simp only at clipped
      split at clipped
      · cases clipped
      split at clipped
      · cases clipped
        exact ⟨rfl, first, given, by omega⟩
      · cases clipped
        rw [List.length_take] at room
        have whole : content.length ≤ (addressCount - first + 1 : Int).toNat := by omega
        rw [List.take_of_length_le whole]
        rw [Nat.min_eq_right whole] at room
        exact ⟨rfl, first, given, by omega⟩
    · intro ⟨same, first, given, room⟩
      subst same
      have whole : content.length ≤ (addressCount - first + 1 : Int).toNat := by omega
      have fits : ¬ first + content.length > addressCount := by omega
      refine ⟨first, given, content, ?_, by simp only [fits, ↓reduceIte]⟩
      have positive : ¬ (addressCount - first + 1 : Int) < -1 := by omega
      have ordinary : ¬ (addressCount - first + 1 : Int) = -1 := by omega
      simp only [clip, positive, ordinary, ↓reduceIte, List.take_of_length_le whole]

theorem placeFile_eq_ok : placeFile setting segment image = .ok result ↔
    segment.file = none ∧ result = image ∨
      ∃ file bytes first, segment.file = some file ∧
        setting.content (setting.pathOf segment file) = .ok bytes ∧
        segment.start = some first ∧ image.writeData first bytes = .ok result := by
  unfold placeFile
  cases segment.file with
  | none => simp [eq_comm]
  | some file =>
    simp only [bind_eq_ok, needed_eq_ok, onImage_eq_ok, payload_eq_ok]
    constructor
    · intro ⟨bytes, ⟨content, _⟩, first, given, written⟩
      exact Or.inr ⟨file, bytes, first, rfl, content, given, written⟩
    · intro either
      rcases either with ⟨impossible, _⟩ | ⟨other, bytes, first, same, content, given, written⟩
      · cases impossible
      · cases same
        obtain ⟨⟨_, _, room⟩, _⟩ := Image.writeData_eq_ok.mp written
        exact ⟨bytes, ⟨content, first, given, room⟩, first, given, written⟩

theorem placeAccess_eq_ok {first : Bool} : placeAccess segment first image = .ok result ↔
    ∃ start, segment.start = some start ∧
      image.setAttributes start segment.count (accessOf segment first).byte.toNat =
        .ok result := by
  simp only [placeAccess, bind_eq_ok, needed_eq_ok, onImage_eq_ok]

variable (address : Nat)

theorem getD_runAt? (first : Int) (bytes : Bytes) (before : UInt8) :
    (runAt? first bytes address).getD before =
      if first ≤ address ∧ address < first + bytes.length then
        bytes[(address - first).toNat]?.getD 0
      else before := by
  unfold runAt?
  by_cases above : first ≤ address
  · by_cases inside : (address : Int) < first + bytes.length
    · have within : (address - first : Int).toNat < bytes.length := by omega
      simp only [above, inside, and_self, ↓reduceIte, List.getElem?_eq_getElem within,
        Option.getD_some]
    · have beyond : bytes.length ≤ (address - first : Int).toNat := by omega
      simp only [above, inside, and_false, ↓reduceIte, List.getElem?_eq_none beyond,
        Option.getD_none]
  · simp only [above, false_and, ↓reduceIte, Option.getD_none]

theorem dataAt_of_writeData {first : Int} {bytes : Bytes}
    (written : image.writeData first bytes = .ok result) :
    result.dataAt address = (runAt? first bytes address).getD (image.dataAt address) := by
  obtain ⟨⟨positive, _, _⟩, _⟩ := Image.writeData_eq_ok.mp written
  have offset : address - first.toNat = (address - first : Int).toNat := by omega
  rw [Image.dataAt_writeData written, getD_runAt?, offset]

theorem placeFill_at (placed : placeFill segment image = .ok result) :
    result.dataAt address = (fillAt? address segment).getD (image.dataAt address) ∧
      result.attributeAt address = image.attributeAt address := by
  rcases placeFill_eq_ok.mp placed with
    ⟨absent, same⟩ | ⟨fill, first, last, filled, start, stop, done⟩
  · rw [same]
    constructor
    · cases start : segment.start <;> cases stop : segment.last <;>
        simp [fillAt?, absent, start, stop]
    · rfl
  · refine ⟨?_, Image.attributeAt_fillData done address⟩
    rw [Image.dataAt_fillData done]
    simp only [fillAt?, filled, start, stop, Option.bind_eq_bind, Option.bind_some]
    split
    · rfl
    · rfl

theorem placeData_at (placed : placeData segment image = .ok result) :
    result.dataAt address = (dataAt? address segment).getD (image.dataAt address) ∧
      result.attributeAt address = image.attributeAt address := by
  rcases placeData_eq_ok.mp placed with ⟨nothing, same⟩ | ⟨bytes, first, held, _, start, done⟩
  · rw [same]
    constructor
    · cases start : segment.start <;> cases held : segment.data <;>
        simp_all [dataAt?, runAt?]
    · rfl
  · refine ⟨?_, Image.attributeAt_writeData done address⟩
    rw [dataAt_of_writeData address done]
    simp only [dataAt?, held, start, Option.bind_eq_bind, Option.bind_some]

theorem placeFile_at (placed : placeFile setting segment image = .ok result) :
    result.dataAt address = (fileAt? setting address segment).getD (image.dataAt address) ∧
      result.attributeAt address = image.attributeAt address := by
  rcases placeFile_eq_ok.mp placed with
    ⟨absent, same⟩ | ⟨file, bytes, first, named, content, start, done⟩
  · rw [same]
    simp [fileAt?, absent]
  · refine ⟨?_, Image.attributeAt_writeData done address⟩
    rw [dataAt_of_writeData address done]
    simp only [fileAt?, named, content, start, Except.toOption, Option.bind_eq_bind,
      Option.bind_some]

theorem attributeByte_byte (access : Access) :
    Image.attributeByte access.byte.toNat = access.byte := by
  rcases access with ⟨_ | _, _ | _⟩ <;> rfl

theorem placeAccess_at {index : Nat}
    (placed : placeAccess segment (index == 0) image = .ok result) :
    result.dataAt address = image.dataAt address ∧
      result.attributeAt address =
        ((accessAt? address (segment, index)).map Access.byte).getD
          (image.attributeAt address) := by
  obtain ⟨start, given, done⟩ := placeAccess_eq_ok.mp placed
  refine ⟨Image.dataAt_setAttributes done address, ?_⟩
  rw [Image.attributeAt_setAttributes done, attributeByte_byte]
  simp only [accessAt?, given, Option.bind_eq_bind, Option.bind_some]
  split
  · rfl
  · rfl

theorem getD_byteAt? (before : UInt8) : (byteAt? setting address segment).getD before =
    (fileAt? setting address segment).getD
      ((dataAt? address segment).getD ((fillAt? address segment).getD before)) := by
  unfold byteAt?
  cases fileAt? setting address segment with
  | some byte => rfl
  | none =>
    cases dataAt? address segment with
    | some byte => rfl
    | none => rfl

theorem place_at {index : Nat} (placed : place setting (index == 0) image segment = .ok result) :
    result.dataAt address = (byteAt? setting address segment).getD (image.dataAt address) ∧
      result.attributeAt address =
        ((accessAt? address (segment, index)).map Access.byte).getD
          (image.attributeAt address) := by
  simp only [place, bind_eq_ok] at placed
  obtain ⟨filled, fill, written, data, loaded, file, access⟩ := placed
  have onFill := placeFill_at address fill
  have onData := placeData_at address data
  have onFile := placeFile_at address file
  have onAccess := placeAccess_at address access
  constructor
  · rw [onAccess.1, onFile.1, onData.1, onFill.1, getD_byteAt?]
  · rw [onAccess.2, onFile.2, onData.2, onFill.2]

theorem placeFrom_at {index : Nat}
    (placed : placeFrom setting index image segments = .ok result) :
    result.dataAt address =
        (latest? (byteAt? setting address) segments).getD (image.dataAt address) ∧
      result.attributeAt address =
        ((latest? (accessAt? address) (segments.zipIdx index)).map Access.byte).getD
          (image.attributeAt address) := by
  induction segments generalizing index image with
  | nil =>
    cases placed
    exact ⟨rfl, rfl⟩
  | cons segment rest ih =>
    rw [placeFrom] at placed
    split at placed
    · cases placed
    rename_i between here
    obtain ⟨data, access⟩ := place_at address here
    obtain ⟨laterData, laterAccess⟩ := ih placed
    rw [List.zipIdx_cons, latest?_cons, latest?_cons]
    constructor
    · rw [laterData, data]
      cases latest? (byteAt? setting address) rest <;> rfl
    · rw [laterAccess, access]
      cases latest? (accessAt? address) (rest.zipIdx (index + 1)) <;> rfl

theorem background_at (inside : address < addressCount) :
    (background segments).dataAt address =
        Image.dataByte ((segments.head?.bind Segment.fill).getD 0) ∧
      (background segments).attributeAt address = Access.vacant.byte := by
  rw [background, Image.dataAt_uniform _ _ inside, Image.attributeAt_uniform _ _ inside,
    attributeByte_byte]
  exact ⟨rfl, rfl⟩

theorem build_at (built : build setting segments = .ok image) (inside : address < addressCount) :
    image.dataAt address = (latest? (byteAt? setting address) segments).getD
        (Image.dataByte ((segments.head?.bind Segment.fill).getD 0)) ∧
      image.attributeAt address =
        ((latest? (accessAt? address) segments.zipIdx).getD Access.vacant).byte := by
  obtain ⟨data, access⟩ := placeFrom_at address built
  obtain ⟨below, behind⟩ := background_at address inside
  rw [data, below, access, behind, Option.getD_map]
  exact ⟨rfl, rfl⟩

/-- Whether all parts of a segment from `first` on lie in the address space. -/
structure Placeable (setting : Setting) (segment : Segment) (first : Int) : Prop where
  start : segment.start = some first
  fill : ∀ fill, segment.fill = some fill →
    ∃ last, segment.last = some last ∧ Image.Covers first (last - first + 1)
  data : ∀ bytes, segment.data = some bytes → Image.Covers first bytes.length
  file : ∀ file, segment.file = some file →
    ∃ content, setting.content (setting.pathOf segment file) = .ok content ∧
      Image.Covers first content.length
  count : Image.Covers first segment.count

variable {first : Int} (image : Image)

theorem placeFill_isOk (start : segment.start = some first) :
    (∃ result, placeFill segment image = .ok result) ↔ ∀ fill, segment.fill = some fill →
      ∃ last, segment.last = some last ∧ Image.Covers first (last - first + 1) := by
  constructor
  · intro ⟨result, placed⟩ fill filled
    rcases placeFill_eq_ok.mp placed with
      ⟨absent, _⟩ | ⟨value, begins, last, same, begun, stop, done⟩
    · rw [filled] at absent
      cases absent
    · rw [start] at begun
      cases begun
      exact ⟨last, stop, Image.fillData_isOk.mp ⟨result, done⟩⟩
  · intro all
    simp only [placeFill_eq_ok]
    cases filled : segment.fill with
    | none => exact ⟨image, Or.inl ⟨rfl, rfl⟩⟩
    | some fill =>
      obtain ⟨last, stop, covers⟩ := all fill filled
      obtain ⟨result, done⟩ : ∃ result, image.fillData first last fill = .ok result :=
        Image.fillData_isOk.mpr covers
      exact ⟨result, Or.inr ⟨fill, first, last, rfl, start, stop, done⟩⟩

/-- Empty data is not written, but would be no burden where the segment itself lies right. -/
theorem placeData_isOk (start : segment.start = some first)
    (count : Image.Covers first segment.count) :
    (∃ result, placeData segment image = .ok result) ↔
      ∀ bytes, segment.data = some bytes → Image.Covers first bytes.length := by
  constructor
  · intro ⟨result, placed⟩ bytes held
    rcases placeData_eq_ok.mp placed with ⟨empty, _⟩ | ⟨other, begins, same, _, begun, done⟩
    · rw [held, Option.getD_some] at empty
      obtain ⟨_, _, _⟩ := count
      rw [empty, List.length_nil]
      refine ⟨?_, ?_, ?_⟩ <;> omega
    · rw [held] at same
      rw [start] at begun
      cases same
      cases begun
      exact Image.writeData_isOk.mp ⟨result, done⟩
  · intro all
    simp only [placeData_eq_ok]
    by_cases empty : segment.data.getD [] = []
    · exact ⟨image, Or.inl ⟨empty, rfl⟩⟩
    · cases held : segment.data with
      | none =>
        rw [held] at empty
        exact absurd rfl empty
      | some bytes =>
        rw [held, Option.getD_some] at empty
        obtain ⟨result, done⟩ : ∃ result, image.writeData first bytes = .ok result :=
          Image.writeData_isOk.mpr (all bytes held)
        exact ⟨result, Or.inr ⟨bytes, first, rfl, empty, start, done⟩⟩

theorem placeFile_isOk (start : segment.start = some first) :
    (∃ result, placeFile setting segment image = .ok result) ↔ ∀ file, segment.file = some file →
      ∃ content, setting.content (setting.pathOf segment file) = .ok content ∧
        Image.Covers first content.length := by
  constructor
  · intro ⟨result, placed⟩ file named
    rcases placeFile_eq_ok.mp placed with
      ⟨absent, _⟩ | ⟨other, bytes, begins, same, content, begun, done⟩
    · rw [named] at absent
      cases absent
    · rw [named] at same
      rw [start] at begun
      cases same
      cases begun
      exact ⟨bytes, content, Image.writeData_isOk.mp ⟨result, done⟩⟩
  · intro all
    simp only [placeFile_eq_ok]
    cases named : segment.file with
    | none => exact ⟨image, Or.inl ⟨rfl, rfl⟩⟩
    | some file =>
      obtain ⟨content, held, covers⟩ := all file named
      obtain ⟨result, done⟩ : ∃ result, image.writeData first content = .ok result :=
        Image.writeData_isOk.mpr covers
      exact ⟨result, Or.inr ⟨file, content, first, rfl, held, start, done⟩⟩

theorem place_isOk (head : Bool) :
    (∃ result, place setting head image segment = .ok result) ↔
      ∃ first, Placeable setting segment first := by
  simp only [place, bind_eq_ok]
  constructor
  · intro ⟨result, filled, fill, written, data, loaded, file, access⟩
    obtain ⟨first, start, accessed⟩ := placeAccess_eq_ok.mp access
    have count := Image.setAttributes_isOk.mp ⟨result, accessed⟩
    exact ⟨first, start, (placeFill_isOk image start).mp ⟨filled, fill⟩,
      (placeData_isOk filled start count).mp ⟨written, data⟩,
      (placeFile_isOk written start).mp ⟨loaded, file⟩, count⟩
  · intro ⟨first, start, fill, data, file, count⟩
    obtain ⟨filled, fill⟩ := (placeFill_isOk image start).mpr fill
    obtain ⟨written, data⟩ := (placeData_isOk filled start count).mpr data
    obtain ⟨loaded, file⟩ := (placeFile_isOk written start).mpr file
    obtain ⟨result, access⟩ : ∃ result, loaded.setAttributes first segment.count
        (accessOf segment head).byte.toNat = .ok result :=
      Image.setAttributes_isOk.mpr count
    exact ⟨result, filled, fill, written, data, loaded, file,
      placeAccess_eq_ok.mpr ⟨first, start, access⟩⟩

theorem placeFrom_isOk (index : Nat) :
    (∃ result, placeFrom setting index image segments = .ok result) ↔
      ∀ segment ∈ segments, ∃ first, Placeable setting segment first := by
  induction segments generalizing index image with
  | nil => simp [placeFrom]
  | cons segment rest ih =>
    rw [List.forall_mem_cons, ← place_isOk image (index == 0), placeFrom]
    cases place setting (index == 0) image segment with
    | error error => simp
    | ok between => simp [ih]

/-- Segments whose parts all lie in the address space, and no others, are laid out. The last one
that gives a byte to an address decides about its data, and the last one over it about its
attribute. -/
theorem build_latest (setting : Setting) :
    (∃ image, build setting [] = .ok image ∧ ∀ address < addressCount,
      image.dataAt address = 0 ∧ image.attributeAt address = (⟨false, true⟩ : Access).byte) ∧
    ∀ first rest image, build setting (first :: rest) = .ok image ↔
      (∀ segment ∈ first :: rest, ∃ start, Placeable setting segment start) ∧
      ∀ address < addressCount,
        image.dataAt address = (latest? (byteAt? setting address) (first :: rest)).getD
          (Image.dataByte (first.fill.getD 0)) ∧
        image.attributeAt address =
          ((latest? (accessAt? address) (first :: rest).zipIdx).getD ⟨false, true⟩).byte := by
  constructor
  · exact ⟨background [], rfl, fun address => background_at address⟩
  · intro first rest image
    constructor
    · intro built
      exact ⟨(placeFrom_isOk _ 0).mp ⟨image, built⟩, fun address => build_at address built⟩
    · intro ⟨placeable, described⟩
      obtain ⟨result, built⟩ := (placeFrom_isOk (background (first :: rest)) 0).mpr placeable
      -- No other image has the bytes that are described.
      have same : result = image := by
        apply Image.ext_at
        intro address inside
        obtain ⟨data, access⟩ := build_at address built inside
        obtain ⟨wantedData, wantedAccess⟩ := described address inside
        exact ⟨data.trans wantedData.symm, access.trans wantedAccess.symm⟩
      rw [← same]
      exact built

-- The fill of one segment from 0x10 to 0x1f, with data of the next one over it from 0x18 on.
example (setting : Setting) :
    let segments : List Segment :=
      [{ start := some 0x10, last := some 0x1f, fill := some 0xea, count := 0x10 },
        { start := some 0x18, data := some [0x41, 0x42], count := 2 }]
    [0xf, 0x10, 0x18, 0x19, 0x1f].map (fun address =>
      latest? (byteAt? setting address) segments) =
        [none, some 0xea, some 0x41, some 0x42, some 0xea] := by
  rfl

end MemoryBoard.Layout
