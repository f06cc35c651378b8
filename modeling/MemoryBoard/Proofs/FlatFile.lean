import MemoryBoard.FlatFile
import MemoryBoard.Memory.View
import MemoryBoard.Proofs.Bytes
import MemoryBoard.Proofs.Except
import MemoryBoard.Proofs.Image

set_option autoImplicit false

namespace MemoryBoard.FlatFile

/-- How many bytes of the buffer an address takes. -/
def stride : FlatFile → Nat
  | plain => 1
  | addressed => 1
  | cells => 2

/-- Whether a file says where its bytes go. -/
def isAddressed : FlatFile → Bool
  | addressed => true
  | _ => false

theorem checkSize_eq_ok {capacity : Int} {payload : Bytes} {done : Unit} :
    checkSize capacity payload = .ok done ↔ 1 ≤ payload.length ∧ payload.length ≤ capacity := by
  have some : payload ≠ [] ↔ 1 ≤ payload.length := List.length_pos_iff.symm
  rw [← some]
  unfold checkSize
  split
  · rename_i refused
    constructor
    · intro impossible
      cases impossible
    · intro ⟨present, fits⟩
      rcases refused with nothing | long
      · exact absurd nothing present
      · omega
  · rename_i accepted
    constructor
    · intro _
      exact ⟨fun nothing => accepted (Or.inl nothing), by omega⟩
    · intro _
      rfl

/-- The files that a buffer of `capacity` bytes has room for. -/
def Admits (layout : FlatFile) (capacity : Nat) (file : Bytes) : Prop :=
  match layout with
  | plain => 1 ≤ file.length ∧ file.length ≤ capacity
  | addressed => 3 ≤ file.length ∧ Bytes.toNat (file.take 2) + (file.length - 2) ≤ capacity
  | cells => 1 ≤ file.length ∧ file.length ≤ capacity ∧ file.length % 2 = 0

/-- What an accepted file brings. -/
def loadOf (layout : FlatFile) (file : Bytes) : Load :=
  match layout with
  | plain => ⟨0, file, ⟨0, file.length, false⟩⟩
  | addressed =>
    let start := Bytes.toNat (file.take 2)
    ⟨start, file.drop 2, ⟨start, file.length - 2, true⟩⟩
  | cells => ⟨0, file, ⟨0, file.length / 2, false⟩⟩

theorem decode_eq_ok {layout : FlatFile} {capacity : Nat} {file : Bytes} {load : Load} :
    layout.decode capacity file = .ok load ↔
      layout.Admits capacity file ∧ load = layout.loadOf file := by
  cases layout with
  | plain =>
    simp only [decode, bind_eq_ok, checkSize_eq_ok, Admits, loadOf]
    constructor
    · rintro ⟨_, fits, same⟩
      cases same
      exact ⟨by omega, rfl⟩
    · rintro ⟨fits, same⟩
      exact ⟨(), by omega, congrArg Except.ok same.symm⟩
  | addressed =>
    rcases file with _ | ⟨low, _ | ⟨high, payload⟩⟩
    · simp [decode, Admits]
    · simp [decode, Admits]
    · have room : Admits addressed capacity (low :: high :: payload) ↔
          1 ≤ payload.length ∧ payload.length ≤ (capacity : Int) - Bytes.toNat [low, high] := by
        simp only [Admits, List.length_cons, List.take_succ_cons, List.take_zero]
        omega
      simp only [decode, bind_eq_ok, checkSize_eq_ok, room]
      constructor
      · rintro ⟨_, fits, same⟩
        cases same
        exact ⟨fits, rfl⟩
      · rintro ⟨fits, same⟩
        exact ⟨(), fits, congrArg Except.ok same.symm⟩
  | cells =>
    simp only [decode, bind_eq_ok, checkSize_eq_ok, Admits, loadOf]
    constructor
    · rintro ⟨_, fits, same⟩
      by_cases even : file.length % 2 = 0
      · rw [if_neg (not_not_intro even)] at same
        cases same
        exact ⟨by omega, rfl⟩
      · rw [if_pos even] at same
        cases same
    · rintro ⟨fits, same⟩
      refine ⟨(), by omega, ?_⟩
      rw [if_neg (not_not_intro fits.2.2), same]
      rfl

/-- A load fills a run of whole addresses inside a buffer, from the start of its block on. -/
structure Sound (layout : FlatFile) (capacity : Nat) (load : Load) : Prop where
  offset : load.offset = layout.stride * load.block.start
  length : load.payload.length = layout.stride * load.block.count
  nonempty : 0 < load.block.count
  inside : load.offset + load.payload.length ≤ capacity
  hasStart : load.block.hasStart = layout.isAddressed
  origin : layout.isAddressed = false → load.block.start = 0

theorem decode_sound {layout : FlatFile} {capacity : Nat} {file : Bytes} {load : Load}
    (decoded : layout.decode capacity file = .ok load) : layout.Sound capacity load := by
  obtain ⟨admits, rfl⟩ := decode_eq_ok.mp decoded
  cases layout with
  | plain =>
    unfold Admits at admits
    constructor <;> simp [loadOf, stride, isAddressed] <;> omega
  | addressed =>
    unfold Admits at admits
    constructor <;> simp [loadOf, stride, isAddressed] <;> omega
  | cells =>
    unfold Admits at admits
    constructor <;> simp [loadOf, stride, isAddressed] <;> omega

theorem decode_cells {capacity : Nat} {file : Bytes} {load : Load}
    (decoded : decode cells capacity file = .ok load) :
    load = ⟨0, file, ⟨0, file.length / 2, false⟩⟩ ∧ file.length % 2 = 0 ∧
      file.length ≤ capacity := by
  obtain ⟨⟨_, fits, even⟩, same⟩ := decode_eq_ok.mp decoded
  exact ⟨same, even, fits⟩

/-- The bytes that a written file keeps: the data, or whole cells. -/
def kept (layout : FlatFile) (pairs : Bytes) : Bytes :=
  match layout with
  | plain => pairs.evens
  | addressed => pairs.evens
  | cells => pairs

theorem length_kept (layout : FlatFile) {pairs : Bytes} {count : Nat}
    (whole : pairs.length = 2 * count) : (layout.kept pairs).length = layout.stride * count := by
  cases layout with
  | plain =>
    rw [kept, Bytes.length_evens, stride]
    omega
  | addressed =>
    rw [kept, Bytes.length_evens, stride]
    omega
  | cells => exact whole

theorem getElem?_kept (layout : FlatFile) (pairs : Bytes) (i : Nat) :
    (layout.kept pairs)[layout.stride * i]? = pairs.evens[i]? := by
  cases layout with
  | plain => rw [kept, stride, Nat.one_mul]
  | addressed => rw [kept, stride, Nat.one_mul]
  | cells => exact (Bytes.getElem?_evens pairs i).symm

/-- A written file is taken apart into what it was written from. -/
theorem decode_write (layout : FlatFile) {capacity first count : Nat} {pairs : Bytes}
    (whole : pairs.length = 2 * count) (positive : 0 < count) (address : first < 65536)
    (room : layout.stride * (first + count) ≤ capacity) :
    layout.decode capacity (layout.write pairs first) =
      .ok ⟨if layout.isAddressed then first else 0, layout.kept pairs,
        ⟨if layout.isAddressed then first else 0, count, layout.isAddressed⟩⟩ := by
  have length := length_kept layout whole
  apply decode_eq_ok.mpr
  cases layout with
  | plain =>
    simp only [kept, stride, Nat.one_mul] at length room
    simp only [Admits, loadOf, write, kept, length]
    exact ⟨by omega, rfl⟩
  | addressed =>
    simp only [kept, stride, Nat.one_mul] at length room
    let header := Bytes.littleEndian 2 (first % 65536 : Int).toNat
    have width : header.length = 2 := Bytes.length_littleEndian 2 _
    have start : Bytes.toNat ((header ++ pairs.evens).take 2) = first := by
      rw [List.take_left' width, Bytes.toNat_littleEndian]
      simp only [Bytes.limit]
      omega
    have rest : (header ++ pairs.evens).drop 2 = pairs.evens := List.drop_left' width
    have total : (header ++ pairs.evens).length = count + 2 := by
      rw [List.length_append, width, length, Nat.add_comm]
    simp only [header] at start rest total
    simp only [Admits, loadOf, write, kept, start, rest, total]
    exact ⟨by omega, rfl⟩
  | cells =>
    simp only [kept, stride] at length room
    have half : pairs.length / 2 = count := by omega
    simp only [Admits, loadOf, write, kept, half]
    exact ⟨by omega, rfl⟩

variable {layout : FlatFile} {file bytes pairs : Bytes} {buffer after : Array UInt8}
  {blocks : List Block} {start first count : Nat}

/-- Some bytes lie in a buffer from a place on, and around them it is as before. -/
structure Filled (before after : Array UInt8) (start : Nat) (bytes : Bytes) : Prop where
  size : after.size = before.size
  inside : ∀ i < bytes.length, after[start + i]? = bytes[i]?
  outside : ∀ i, i < start ∨ start + bytes.length ≤ i → after[i]? = before[i]?

theorem filled_writeConsecutive (room : start + bytes.length ≤ buffer.size) :
    Filled buffer (Image.writeConsecutive buffer start bytes) start bytes := by
  refine ⟨Image.size_writeConsecutive buffer start bytes, fun i bound => ?_, fun i apart => ?_⟩
  · have covered : start ≤ start + i ∧ start + i < start + bytes.length ∧
        start + i < buffer.size := by omega
    rw [Image.getElem?_writeConsecutive, if_pos covered, Nat.add_sub_cancel_left]
  · have uncovered : ¬ (start ≤ i ∧ i < start + bytes.length ∧ i < buffer.size) := by omega
    rw [Image.getElem?_writeConsecutive, if_neg uncovered]

theorem read_eq_ok : layout.read file buffer = (.ok blocks, after) ↔
    layout.Admits buffer.size file ∧ blocks = [(layout.loadOf file).block] ∧
      after = Image.writeConsecutive buffer (layout.loadOf file).offset
        (layout.loadOf file).payload := by
  unfold read
  constructor
  · intro accepted
    cases decoded : layout.decode buffer.size file with
    | error error =>
      rw [decoded] at accepted
      cases accepted
    | ok load =>
      obtain ⟨admits, same⟩ := decode_eq_ok.mp decoded
      rw [decoded] at accepted
      cases accepted
      rw [← same]
      exact ⟨admits, rfl, rfl⟩
  · intro ⟨admits, sameBlocks, sameAfter⟩
    rw [decode_eq_ok.mpr ⟨admits, rfl⟩, sameBlocks, sameAfter]

/-- A written file brings what it was written from, at the address that it can state. -/
theorem read_written (layout : FlatFile) (whole : pairs.length = 2 * count) (positive : 0 < count)
    (address : first < 65536) (room : layout.stride * (first + count) ≤ buffer.size) :
    let start := if layout.isAddressed then first else 0
    ∃ after, layout.read (layout.write pairs first) buffer =
        (.ok [⟨start, count, layout.isAddressed⟩], after) ∧
      Filled buffer after (layout.stride * start) (layout.kept pairs) := by
  intro start
  have decoded := decode_write layout whole positive address room
  have sound := decode_sound decoded
  have offset : start = layout.stride * start := sound.offset
  have inside : start + (layout.kept pairs).length ≤ buffer.size := sound.inside
  rw [← offset]
  refine ⟨_, ?_, filled_writeConsecutive inside⟩
  unfold read
  rw [decoded]

/-- An accepted file is written again from what it brought, with any attributes. -/
theorem write_read (accepted : addressed.read file buffer = (.ok blocks, after)) :
    ∃ block, blocks = [block] ∧ ∀ pairs : Bytes,
      pairs.evens = (after.extract block.start (block.start + block.count)).toList →
        addressed.write pairs block.start = file := by
  obtain ⟨⟨long, room⟩, same, placed⟩ := read_eq_ok.mp accepted
  refine ⟨(loadOf addressed file).block, same, fun pairs data => ?_⟩
  let start := Bytes.toNat (file.take 2)
  have header : (file.take 2).length = 2 := List.length_take_of_le (by omega)
  have bound : start < 65536 := by
    have limit := Bytes.toNat_lt (file.take 2)
    rw [header] at limit
    exact limit
  have kept : (start % 65536 : Int).toNat = start := by omega
  have address : Bytes.littleEndian 2 (start % 65536 : Int).toNat = file.take 2 := by
    have back := Bytes.littleEndian_toNat (file.take 2)
    rw [header] at back
    rw [kept, back]
  have payload : (after.extract start (start + (file.length - 2))).toList = file.drop 2 := by
    have count : (file.drop 2).length = file.length - 2 := List.length_drop
    have inside : start + (file.drop 2).length ≤ buffer.size := by omega
    rw [placed, ← count]
    exact Image.extract_writeConsecutive inside
  have brought : pairs.evens = file.drop 2 := data.trans payload
  calc addressed.write pairs start
      = Bytes.littleEndian 2 (start % 65536 : Int).toNat ++ pairs.evens := rfl
    _ = file.take 2 ++ file.drop 2 := by rw [address, brought]
    _ = file := List.take_append_drop 2 file

/-- A file is accepted just if it is no shorter and no longer than its layout and the buffer allow.
What is written comes back: the data, with their address if it is stated, or whole cells. A file
with an address is also the one that is written from what it brings. -/
theorem codecs_inverse (buffer : Array UInt8) :
    (∀ (layout : FlatFile) (file : Bytes),
      (∃ blocks after, layout.read file buffer = (.ok blocks, after)) ↔
        layout.Admits buffer.size file) ∧
    (∀ (pairs : Bytes) (count : Nat) (base : Int), pairs.length = 2 * count → 1 ≤ count →
      (count ≤ buffer.size → ∃ after,
        plain.read (plain.write pairs base) buffer = (.ok [⟨0, count, false⟩], after) ∧
          Filled buffer after 0 pairs.evens) ∧
      (2 * count ≤ buffer.size → ∃ after,
        cells.read (cells.write pairs base) buffer = (.ok [⟨0, count, false⟩], after) ∧
          Filled buffer after 0 pairs) ∧
      ∀ start : Nat, base = start → start ≤ 0xffff → start + count ≤ buffer.size → ∃ after,
        addressed.read (addressed.write pairs base) buffer = (.ok [⟨start, count, true⟩], after) ∧
          Filled buffer after start pairs.evens) ∧
    ∀ (file : Bytes) (blocks : List Block) (after : Array UInt8),
      addressed.read file buffer = (.ok blocks, after) →
        ∃ block, blocks = [block] ∧ ∀ pairs : Bytes,
          pairs.evens = (after.extract block.start (block.start + block.count)).toList →
            addressed.write pairs block.start = file := by
  refine ⟨fun layout file => ?_, fun pairs count base whole positive => ⟨?_, ?_, ?_⟩,
    fun file blocks after accepted => write_read accepted⟩
  · constructor
    · intro ⟨blocks, after, accepted⟩
      exact (read_eq_ok.mp accepted).1
    · intro admits
      exact ⟨_, _, read_eq_ok.mpr ⟨admits, rfl, rfl⟩⟩
  · -- Without an address in the file the base does not matter.
    intro room
    have result := read_written plain whole positive (show 0 < 65536 by decide)
      (show 1 * (0 + count) ≤ buffer.size by omega)
    exact result
  · intro room
    have result := read_written cells whole positive (show 0 < 65536 by decide)
      (show 2 * (0 + count) ≤ buffer.size by omega)
    exact result
  · intro start same address room
    have result := read_written addressed whole positive (Nat.lt_succ_of_le address)
      (show 1 * (start + count) ≤ buffer.size by omega)
    rw [same]
    simpa only [stride, isAddressed, kept, ↓reduceIte, Nat.one_mul] using result

/-- Two bytes at the end of a buffer, where there is no room for a third. -/
theorem codecs_inverse_top :
    let buffer : Array UInt8 := Array.replicate 0x10000 0
    let pairs : Bytes := [0x12, 0, 0x34, 3]
    pairs.length = 2 * 2 ∧ 0xfffe + 2 ≤ buffer.size ∧
      (∃ after, addressed.read (addressed.write pairs 0xfffe) buffer =
          (.ok [⟨0xfffe, 2, true⟩], after) ∧ Filled buffer after 0xfffe pairs.evens) ∧
      ¬ ∃ blocks after, addressed.read [0xfe, 0xff, 0x12, 0x34, 0x56] buffer =
          (.ok blocks, after) := by
  intro buffer pairs
  have size : buffer.size = 0x10000 := Array.size_replicate
  have room : 0xfffe + 2 ≤ buffer.size := by omega
  obtain ⟨accepted, written, _⟩ := codecs_inverse buffer
  obtain ⟨_, _, back⟩ := written pairs 2 0xfffe rfl (by decide)
  refine ⟨rfl, room, back 0xfffe rfl (by decide) room, ?_⟩
  rw [accepted]
  intro ⟨_, fits⟩
  have sum : Bytes.toNat [0xfe, 0xff] + 3 ≤ buffer.size := fits
  have start : Bytes.toNat [0xfe, 0xff] = 0xfffe := rfl
  omega

end MemoryBoard.FlatFile
