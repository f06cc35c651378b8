import MemoryBoard.Memory.View
import MemoryBoard.Proofs.Bytes

set_option autoImplicit false

namespace MemoryBoard.Image

theorem dataAt_zero (address : Nat) : zero.dataAt address = 0 := by
  rw [dataAt, zero, Array.getElem?_replicate]
  split <;> rfl

theorem extract_writeConsecutive {cells : Array UInt8} {index : Nat} {bytes : Bytes}
    (room : index + bytes.length ≤ cells.size) :
    ((writeConsecutive cells index bytes).extract index (index + bytes.length)).toList = bytes := by
  apply List.ext_getElem?
  intro i
  rw [Array.getElem?_toList, Array.getElem?_extract, size_writeConsecutive,
    Nat.min_eq_left room, Nat.add_sub_cancel_left, getElem?_writeConsecutive]
  by_cases inside : i < bytes.length
  · have within :
        index ≤ index + i ∧ index + i < index + bytes.length ∧ index + i < cells.size := by
      omega
    simp only [inside, within, and_self, ↓reduceIte, Nat.add_sub_cancel_left]
  · simp only [inside, ↓reduceIte]
    exact (List.getElem?_eq_none (by omega)).symm

theorem readCells_writeCells {image result : Image} {start : Int} {payload : Bytes}
    (written : image.writeCells start payload = .ok result) :
    result.readCells start (payload.length / 2 : Nat) = .ok payload := by
  obtain ⟨even, covers, cells⟩ := writeCells_eq_ok.mp written
  have bounds := covers
  obtain ⟨_, _, _⟩ := bounds
  have size := image.size_cells
  unfold imageSize at size
  have stop : 2 * (start.toNat + (payload.length / 2 : Nat)) =
      2 * start.toNat + payload.length := by omega
  have room : 2 * start.toNat + payload.length ≤ image.cells.size := by omega
  unfold readCells
  simp only [covers, ↓reduceIte, Int.toNat_natCast, stop, cells, extract_writeConsecutive room]

theorem eq_map_range {bytes : Bytes} {count : Nat} {byteOf : Nat → UInt8}
    (length : bytes.length = count) (each : ∀ i < count, bytes[i]? = some (byteOf i)) :
    bytes = (List.range count).map byteOf := by
  apply List.ext_getElem?
  intro i
  rw [List.getElem?_map]
  by_cases inside : i < count
  · rw [each i inside, List.getElem?_range inside, Option.map_some]
  · have past : (List.range count).length ≤ i := by
      rw [List.length_range]
      omega
    rw [List.getElem?_eq_none (by omega), List.getElem?_eq_none past, Option.map_none]

/-- The data of cells that were read out. -/
theorem evens_readCells {image : Image} {start count : Int} {cells : Bytes}
    (read : image.readCells start count = .ok cells) :
    cells.evens = (List.range count.toNat).map fun i => image.dataAt (start.toNat + i) := by
  obtain ⟨_, length, each⟩ := readCells_eq_ok read
  refine eq_map_range ?_ fun i inside => ?_
  · rw [Bytes.length_evens]
    omega
  · rw [Bytes.getElem?_evens, (each i inside).1]

/-- The attributes of cells that were read out. -/
theorem odds_readCells {image : Image} {start count : Int} {cells : Bytes}
    (read : image.readCells start count = .ok cells) :
    cells.odds = (List.range count.toNat).map fun i => image.attributeAt (start.toNat + i) := by
  obtain ⟨_, length, each⟩ := readCells_eq_ok read
  refine eq_map_range ?_ fun i inside => ?_
  · rw [(Bytes.length_evens_odds cells).2]
    omega
  · rw [(Bytes.getElem?_evens_odds cells i).2, (each i inside).2]

end MemoryBoard.Image
