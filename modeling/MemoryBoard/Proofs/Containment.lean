import MemoryBoard.Proofs.FlatFile
import MemoryBoard.Proofs.HexRecord.Accepted

set_option autoImplicit false

namespace MemoryBoard

/-- The buffer with some bytes in the place of as many others from `index` on. Where it ends before
them it gets longer. -/
def spliced (buffer : Array UInt8) (index : Nat) (bytes : Bytes) : Array UInt8 :=
  buffer.extract 0 index ++ bytes.toArray ++ buffer.extract (index + bytes.length)

/-- Bytes that have room in a buffer replace others. -/
theorem spliced_eq_writeConsecutive {buffer : Array UInt8} {index : Nat} {bytes : Bytes}
    (room : index + bytes.length ≤ buffer.size) :
    spliced buffer index bytes = Image.writeConsecutive buffer index bytes := by
  apply Array.ext_getElem?
  intro i
  have front : (buffer.extract 0 index).size = index := by
    rw [Array.size_extract]
    omega
  rw [Image.getElem?_writeConsecutive, spliced, Array.append_assoc, Array.getElem?_append, front,
    Array.getElem?_append, List.size_toArray, Array.getElem?_extract, Array.getElem?_extract]
  by_cases before : i < index
  · have outside : ¬ (index ≤ i ∧ i < index + bytes.length ∧ i < buffer.size) := by omega
    have taken : i < min index buffer.size - 0 := by omega
    simp only [before, ↓reduceIte, outside, taken, Nat.zero_add]
  · by_cases within : i < index + bytes.length
    · have offset : i - index < bytes.length := by omega
      have inside : index ≤ i ∧ i < index + bytes.length ∧ i < buffer.size := by omega
      simp only [before, ↓reduceIte, offset, inside, and_self, List.getElem?_toArray]
    · have offset : ¬ i - index < bytes.length := by omega
      have outside : ¬ (index ≤ i ∧ i < index + bytes.length ∧ i < buffer.size) := by omega
      have place : index + bytes.length + (i - index - bytes.length) = i := by omega
      simp only [before, ↓reduceIte, offset, outside, place]
      split
      · rfl
      · rename_i behind
        exact (Array.getElem?_eq_none (by omega)).symm

/-- What an accepted file does to a buffer that has `stride` bytes for each address. A file without
addresses has its block at the beginning. -/
structure Contained (stride : Nat) (addressed : Bool) (before after : Array UInt8)
    (blocks : List Block) : Prop where
  size : after.size = before.size
  nonempty : ∀ block ∈ blocks, 1 ≤ block.count
  inside : ∀ block ∈ blocks, stride * (block.start + block.count) ≤ before.size
  hasStart : ∀ block ∈ blocks, block.hasStart = addressed
  origin : addressed = false → ∀ block ∈ blocks, block.start = 0
  frame : ∀ i, (∀ block ∈ blocks,
      ¬ (stride * block.start ≤ i ∧ i < stride * (block.start + block.count))) →
    after[i]? = before[i]?

/-- What a reading leaves of a buffer, with its blocks or an error. -/
def AllOrNothing {ε : Type} (stride : Nat) (addressed : Bool) (before : Array UInt8)
    (outcome : Except ε (List Block) × Array UInt8) : Prop :=
  match outcome.1 with
  | .error _ => outcome.2 = before
  | .ok blocks => Contained stride addressed before outcome.2 blocks

namespace HexRecord

variable {dialect : Dialect} {source : Text.Source} {buffer : Array UInt8} {found : List Record}

theorem placeAll_contained (placed : ∀ record ∈ found, record.Placed buffer.size) :
    Contained 1 true buffer (placeAll buffer found) (blocksOf found) := by
  have sound := blocksOf_sound placed
  refine ⟨size_placeAll buffer found, ?_, ?_, ?_, ?_, ?_⟩
  · intro block member
    exact (sound block member).nonempty
  · intro block member
    rw [Nat.one_mul]
    exact (sound block member).inside
  · intro block member
    exact (sound block member).hasStart
  · intro impossible
    cases impossible
  · intro i uncovered
    by_cases inside : i < buffer.size
    · have none : latest? (Record.byteAt? i) found = none := by
        apply Option.not_isSome_iff_eq_none.mp
        intro given
        obtain ⟨block, member, covers⟩ := (blocksOf_covers placed i).mpr given
        apply uncovered block member
        rw [Nat.one_mul, Nat.one_mul]
        exact covers
      rw [getElem?_placeAll buffer found inside, none, Option.none_or]
    · have size := size_placeAll buffer found
      rw [Array.getElem?_eq_none (by omega), Array.getElem?_eq_none (by omega)]

theorem read_allOrNothing (dialect : Dialect) (source : Text.Source) (buffer : Array UInt8) :
    AllOrNothing 1 true buffer (read dialect source buffer) := by
  unfold read
  cases read : records dialect buffer.size source with
  | error error => exact rfl
  | ok found => exact placeAll_contained (records_placed read)

/-- Reading with a way of its own to put bytes into the buffer. -/
def readBy (put : Array UInt8 → Nat → Bytes → Array UInt8) (dialect : Dialect)
    (source : Text.Source) (buffer : Array UInt8) : Except HexError (List Block) × Array UInt8 :=
  match records dialect buffer.size source with
  | .ok found =>
    (.ok (blocksOf found),
      found.foldl (fun buffer record => put buffer record.address record.payload) buffer)
  | .error error => (.error error, buffer)

theorem foldl_spliced (placed : ∀ record ∈ found, record.Placed buffer.size) :
    found.foldl (fun buffer record => spliced buffer record.address record.payload) buffer =
      placeAll buffer found := by
  induction found generalizing buffer with
  | nil => rfl
  | cons record rest ih =>
    have first := spliced_eq_writeConsecutive (placed record List.mem_cons_self).2
    rw [List.foldl_cons, first, ih]
    · rfl
    · intro other member
      rw [Image.size_writeConsecutive]
      exact placed other (List.mem_cons_of_mem record member)

theorem readBy_spliced (dialect : Dialect) (source : Text.Source) (buffer : Array UInt8) :
    readBy spliced dialect source buffer = read dialect source buffer := by
  unfold readBy HexRecord.read
  cases read : records dialect buffer.size source with
  | error error => rfl
  | ok found => simp only [foldl_spliced (records_placed read)]

end HexRecord

namespace FlatFile

variable {layout : FlatFile} {buffer : Array UInt8} {load : Load}

theorem Sound.contained (sound : layout.Sound buffer.size load) :
    Contained layout.stride layout.isAddressed buffer
      (Image.writeConsecutive buffer load.offset load.payload) [load.block] := by
  have covered : load.offset + load.payload.length =
      layout.stride * (load.block.start + load.block.count) := by
    rw [sound.offset, sound.length, Nat.mul_add]
  refine ⟨Image.size_writeConsecutive _ _ _, ?_, ?_, ?_, ?_, ?_⟩
  · intro block member
    rw [List.mem_singleton.mp member]
    exact sound.nonempty
  · intro block member
    rw [List.mem_singleton.mp member, ← covered]
    exact sound.inside
  · intro block member
    rw [List.mem_singleton.mp member]
    exact sound.hasStart
  · intro bare block member
    rw [List.mem_singleton.mp member]
    exact sound.origin bare
  · intro i uncovered
    have outside := uncovered load.block (List.mem_singleton.mpr rfl)
    rw [← sound.offset, ← covered] at outside
    have unwritten : ¬ (load.offset ≤ i ∧ i < load.offset + load.payload.length ∧
        i < buffer.size) := by omega
    rw [Image.getElem?_writeConsecutive]
    simp only [unwritten, ↓reduceIte]

theorem read_allOrNothing (layout : FlatFile) (file : Bytes) (buffer : Array UInt8) :
    AllOrNothing layout.stride layout.isAddressed buffer (layout.read file buffer) := by
  unfold read
  cases decoded : layout.decode buffer.size file with
  | error error => exact rfl
  | ok load => exact (decode_sound decoded).contained

/-- Reading with a way of its own to put bytes into the buffer. -/
def readBy (put : Array UInt8 → Nat → Bytes → Array UInt8) (layout : FlatFile) (file : Bytes)
    (buffer : Array UInt8) : Except BinaryError (List Block) × Array UInt8 :=
  match layout.decode buffer.size file with
  | .ok load => (.ok [load.block], put buffer load.offset load.payload)
  | .error error => (.error error, buffer)

theorem readBy_spliced (layout : FlatFile) (file : Bytes) (buffer : Array UInt8) :
    readBy spliced layout file buffer = layout.read file buffer := by
  unfold readBy read
  cases decoded : layout.decode buffer.size file with
  | error error => rfl
  | ok load => simp only [spliced_eq_writeConsecutive (decode_sound decoded).inside]

end FlatFile

/-- Every reader either fails and leaves the buffer alone, or changes it inside its blocks only. The
same goes for readers whose buffer could get longer. -/
theorem readers_allOrNothing (before : Array UInt8) :
    (∀ (dialect : HexRecord.Dialect) (source : Text.Source),
      AllOrNothing 1 true before (HexRecord.read dialect source before) ∧
        HexRecord.readBy spliced dialect source before = HexRecord.read dialect source before) ∧
    ∀ (layout : FlatFile) (file : Bytes),
      AllOrNothing layout.stride layout.isAddressed before (layout.read file before) ∧
        FlatFile.readBy spliced layout file before = layout.read file before := by
  constructor
  · intro dialect source
    exact ⟨HexRecord.read_allOrNothing dialect source before,
      HexRecord.readBy_spliced dialect source before⟩
  · intro layout file
    exact ⟨FlatFile.read_allOrNothing layout file before,
      FlatFile.readBy_spliced layout file before⟩

end MemoryBoard
