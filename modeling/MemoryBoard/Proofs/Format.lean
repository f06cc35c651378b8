import MemoryBoard.Format
import MemoryBoard.Proofs.FlatFile
import MemoryBoard.Proofs.HexRecord.Accepted
import MemoryBoard.Proofs.HexRecord.RoundTrip

set_option autoImplicit false

namespace MemoryBoard

namespace InputFormat

/-- How many bytes of a reader's buffer an address takes. -/
def stride : InputFormat → Nat
  | records _ => 1
  | flat layout => layout.stride

/-- Whether the blocks of a file have addresses of their own. -/
def isAddressed : InputFormat → Bool
  | records _ => true
  | flat layout => layout.isAddressed

/-- Zeros for all addresses. -/
def blank (format : InputFormat) : Array UInt8 :=
  Array.replicate (format.stride * addressCount) 0

/-- The blocks of a file and the buffer of zeros that it was read into. -/
def load? (format : InputFormat) (file : Bytes) : Option (List Block × Array UInt8) :=
  let (result, buffer) := match format with
    | records dialect =>
      let (result, buffer) := HexRecord.read dialect (.ofFile file) format.blank
      (result.toOption, buffer)
    | flat layout =>
      let (result, buffer) := layout.read file format.blank
      (result.toOption, buffer)
  result.map (·, buffer)

/-- The byte of a buffer that belongs to an address. -/
def byteAt (format : InputFormat) (buffer : Array UInt8) (address : Nat) : UInt8 :=
  (buffer[format.stride * address]?).getD 0

/-- The blocks of a file lie inside the buffer, and a file without addresses has one at zero. -/
structure Sound (format : InputFormat) (blocks : List Block) (buffer : Array UInt8) : Prop where
  size : buffer.size = format.stride * addressCount
  nonempty : ∀ block ∈ blocks, 0 < block.count
  inside : ∀ block ∈ blocks, block.start + block.count ≤ addressCount
  hasStart : ∀ block ∈ blocks, block.hasStart = format.isAddressed
  single : format.isAddressed = false → ∃ count, blocks = [⟨0, count, false⟩]

theorem load?_records_iff_read {dialect : HexRecord.Dialect} {file : Bytes} {blocks : List Block}
    {buffer : Array UInt8} :
    (records dialect).load? file = some (blocks, buffer) ↔
      HexRecord.read dialect (.ofFile file) (records dialect).blank = (.ok blocks, buffer) := by
  simp only [load?]
  rcases HexRecord.read dialect (.ofFile file) (records dialect).blank with ⟨result, after⟩
  cases result with
  | error error => simp [Except.toOption]
  | ok found => simp [Except.toOption]

theorem load?_flat_iff_read {layout : FlatFile} {file : Bytes} {blocks : List Block}
    {buffer : Array UInt8} :
    (flat layout).load? file = some (blocks, buffer) ↔
      layout.read file (flat layout).blank = (.ok blocks, buffer) := by
  simp only [load?]
  rcases layout.read file (flat layout).blank with ⟨result, after⟩
  cases result with
  | error error => simp [Except.toOption]
  | ok found => simp [Except.toOption]

theorem load?_records {dialect : HexRecord.Dialect} {file : Bytes} {blocks : List Block}
    {buffer : Array UInt8} :
    (records dialect).load? file = some (blocks, buffer) ↔
      ∃ found, HexRecord.records dialect addressCount (.ofFile file) = .ok found ∧
        blocks = HexRecord.blocksOf found ∧
        buffer = HexRecord.placeAll (records dialect).blank found := by
  have size : (records dialect).blank.size = addressCount := by
    simp only [blank, stride, Array.size_replicate, Nat.one_mul]
  rw [load?_records_iff_read, HexRecord.read, size]
  cases HexRecord.records dialect addressCount (.ofFile file) with
  | error error => simp
  | ok found => simp [eq_comm]

theorem load?_flat {layout : FlatFile} {file : Bytes} {blocks : List Block}
    {buffer : Array UInt8} :
    (flat layout).load? file = some (blocks, buffer) ↔
      ∃ load, layout.decode (layout.stride * addressCount) file = .ok load ∧
        blocks = [load.block] ∧
        buffer = Image.writeConsecutive (flat layout).blank load.offset load.payload := by
  have size : (flat layout).blank.size = layout.stride * addressCount := by
    simp only [blank, stride, Array.size_replicate]
  rw [load?_flat_iff_read, FlatFile.read, size]
  cases layout.decode (layout.stride * addressCount) file with
  | error error => simp
  | ok load => simp [eq_comm]

theorem stride_pos (format : InputFormat) : 0 < format.stride := by
  cases format with
  | records dialect => exact Nat.one_pos
  | flat layout => cases layout <;> simp only [stride, FlatFile.stride] <;> omega

theorem stride_eq (format : InputFormat) :
    format.stride = if (Format.file format).holdsCells then 2 else 1 := by
  cases format with
  | records dialect => rfl
  | flat layout => cases layout <;> rfl

theorem load?_sound {format : InputFormat} {file : Bytes} {blocks : List Block}
    {buffer : Array UInt8} (loaded : format.load? file = some (blocks, buffer)) :
    format.Sound blocks buffer := by
  cases format with
  | records dialect =>
    obtain ⟨found, read, rfl, rfl⟩ := load?_records.mp loaded
    have sound := HexRecord.blocksOf_sound (HexRecord.records_placed read)
    refine ⟨?_, fun block member => (sound block member).nonempty,
      fun block member => (sound block member).inside,
      fun block member => (sound block member).hasStart, fun impossible => ?_⟩
    · rw [HexRecord.size_placeAll, blank, Array.size_replicate]
    · cases impossible
  | flat layout =>
    obtain ⟨load, decoded, rfl, rfl⟩ := load?_flat.mp loaded
    have sound := FlatFile.decode_sound decoded
    have positive : 0 < layout.stride := stride_pos (flat layout)
    have inside : load.block.start + load.block.count ≤ addressCount := by
      have bound := sound.inside
      rw [sound.offset, sound.length, ← Nat.mul_add] at bound
      exact Nat.le_of_mul_le_mul_left bound positive
    refine ⟨?_, ?_, ?_, ?_, ?_⟩
    · rw [Image.size_writeConsecutive, blank, Array.size_replicate]
    · intro block member
      rw [List.mem_singleton.mp member]
      exact sound.nonempty
    · intro block member
      rw [List.mem_singleton.mp member]
      exact inside
    · intro block member
      rw [List.mem_singleton.mp member]
      exact sound.hasStart
    · intro unaddressed
      refine ⟨load.block.count, ?_⟩
      have start := sound.origin unaddressed
      have hasStart := sound.hasStart
      rw [show layout.isAddressed = false from unaddressed] at hasStart
      rw [← start, ← hasStart]

/-- A block without an address of its own lies at the beginning of the buffer. -/
theorem Sound.offset {format : InputFormat} {blocks : List Block} {buffer : Array UInt8}
    (sound : format.Sound blocks buffer) {block : Block} (member : block ∈ blocks) :
    (if block.hasStart = true then block.start else 0) = block.start := by
  split
  · rfl
  · rename_i bare
    rw [sound.hasStart block member] at bare
    obtain ⟨count, alone⟩ := sound.single (Bool.eq_false_iff.mpr bare)
    rw [alone, List.mem_singleton] at member
    rw [member]

/-- In a loaded hex file the last record that covers an address decides, and elsewhere is zero. -/
theorem byteAt_records {dialect : HexRecord.Dialect} {found : List HexRecord.Record} {address : Nat}
    (inside : address < addressCount) :
    (records dialect).byteAt (HexRecord.placeAll (records dialect).blank found) address =
      (latest? (HexRecord.Record.byteAt? address) found).getD 0 := by
  have size : (records dialect).blank.size = addressCount := by
    simp only [blank, stride, Array.size_replicate, Nat.one_mul]
  have zero : (records dialect).blank[address]? = some 0 := by
    simp only [blank, stride, Nat.one_mul, Array.getElem?_replicate, inside, ↓reduceIte]
  rw [byteAt, stride, Nat.one_mul, HexRecord.getElem?_placeAll _ _ (by omega), zero]
  cases latest? (HexRecord.Record.byteAt? address) found <;> rfl

/-- The file that holds written content. -/
def fileOf : Format.Content → Bytes
  | .text text => Text.encodeUtf8 text
  | .bytes bytes => bytes

/-- A run of bytes written into zeros, at an address inside it. -/
theorem byteAt_writeConsecutive (format : InputFormat) {count i : Nat} (start : Nat)
    (payload : Bytes) (length : payload.length = format.stride * count)
    (inside : start + count ≤ addressCount) (covered : i < count) :
    format.byteAt (Image.writeConsecutive format.blank (format.stride * start) payload)
        (start + i) = payload[format.stride * i]?.getD 0 := by
  have positive := stride_pos format
  have size : format.blank.size = format.stride * addressCount := by
    rw [blank, Array.size_replicate]
  have low : format.stride * (start + i) = format.stride * start + format.stride * i :=
    Nat.mul_add _ _ _
  have high : format.stride * i < format.stride * count :=
    (Nat.mul_lt_mul_left positive).mpr covered
  have room : format.stride * (start + i) < format.stride * addressCount :=
    (Nat.mul_lt_mul_left positive).mpr (by omega)
  have within : format.stride * start ≤ format.stride * start + format.stride * i ∧
      format.stride * start + format.stride * i < format.stride * start + payload.length ∧
      format.stride * start + format.stride * i < format.blank.size := by
    rw [length, size, ← low]
    omega
  rw [byteAt, low, Image.getElem?_writeConsecutive]
  simp only [within, and_self, ↓reduceIte, Nat.add_sub_cancel_left]

/-- Reading what the writer of the format wrote gives one block with the written bytes. -/
theorem load?_write (format : InputFormat) {pairs : Bytes} {first count : Nat}
    (whole : pairs.length = 2 * count) (positive : 0 < count)
    (inside : first + count ≤ addressCount) :
    let start := if format.isAddressed then first else 0
    ∃ buffer,
      format.load? (fileOf ((Format.file format).write pairs first)) =
        some ([⟨start, count, format.isAddressed⟩], buffer) ∧
      ∀ i < count, format.byteAt buffer (start + i) = pairs.evens[i]?.getD 0 := by
  intro start
  have fits : start + count ≤ addressCount := by
    simp only [start]
    split <;> omega
  cases format with
  | records dialect =>
    have length : pairs.evens.length = count := by
      rw [Bytes.length_evens]
      omega
    have some : pairs.evens ≠ [] := by
      intro nothing
      rw [nothing, List.length_nil] at length
      omega
    have size : (records dialect).blank.size = addressCount := by
      simp only [blank, stride, Array.size_replicate, Nat.one_mul]
    have read := HexRecord.read_ofFile_write dialect pairs first (records dialect).blank
      (by omega) (by omega)
    refine ⟨Image.writeConsecutive (records dialect).blank first pairs.evens, ?_, ?_⟩
    · simp only [load?, fileOf, Format.write, read, some, ↓reduceIte, length]
      rfl
    · intro i covered
      have whole : pairs.evens.length = (records dialect).stride * count := by
        simp only [stride]
        omega
      have byte := byteAt_writeConsecutive (records dialect) first pairs.evens whole inside covered
      simp only [stride, Nat.one_mul] at byte
      exact byte
  | flat layout =>
    have length := FlatFile.length_kept layout whole
    have room : layout.stride * (first + count) ≤ layout.stride * addressCount :=
      Nat.mul_le_mul_left layout.stride inside
    have address : first < 65536 := by
      unfold addressCount at inside
      omega
    have decoded := FlatFile.decode_write layout whole positive address room
    refine ⟨_, load?_flat.mpr ⟨_, decoded, rfl, rfl⟩, fun i covered => ?_⟩
    have offset : (if layout.isAddressed = true then first else 0) = layout.stride * start := by
      cases layout <;> simp [start, isAddressed, FlatFile.isAddressed, FlatFile.stride]
    have byte := byteAt_writeConsecutive (flat layout) start (layout.kept pairs) length fits covered
    rw [← FlatFile.getElem?_kept layout, offset]
    exact byte

end InputFormat

end MemoryBoard
