import MemoryBoard.Memory.Image

set_option autoImplicit false

namespace MemoryBoard.Image

theorem getElem?_writeConsecutive (cells : Array UInt8) (index : Nat) (bytes : Bytes) (i : Nat) :
    (writeConsecutive cells index bytes)[i]? =
      if index ≤ i ∧ i < index + bytes.length ∧ i < cells.size then bytes[i - index]?
      else cells[i]? := by
  induction bytes generalizing cells index with
  | nil => grind [writeConsecutive]
  | cons byte rest ih =>
    rw [writeConsecutive, ih]
    grind

theorem getElem?_writeAlternate (cells : Array UInt8) (index : Nat) (bytes : Bytes) (i : Nat) :
    (writeAlternate cells index bytes)[i]? =
      if index ≤ i ∧ (i - index) % 2 = 0 ∧ (i - index) / 2 < bytes.length ∧ i < cells.size then
        bytes[(i - index) / 2]?
      else cells[i]? := by
  induction bytes generalizing cells index with
  | nil => grind [writeAlternate]
  | cons byte rest ih =>
    rw [writeAlternate, ih]
    grind

/-- Images are the same if no address tells them apart. -/
theorem ext_at {first second : Image}
    (same : ∀ i < addressCount,
      first.dataAt i = second.dataAt i ∧ first.attributeAt i = second.attributeAt i) :
    first = second := by
  rcases first with ⟨first, sizeFirst⟩
  rcases second with ⟨second, sizeSecond⟩
  have present (cells : Array UInt8) (i : Nat) (inside : i < cells.size) :
      cells[i]? = some (cells[i]?.getD 0) := by
    rw [Array.getElem?_eq_getElem inside, Option.getD_some]
  have equal : first = second := by
    apply Array.ext_getElem?
    intro i
    by_cases inside : i < imageSize
    · rw [present first i (by omega), present second i (by omega)]
      apply congrArg some
      have here := same (i / 2) (by unfold imageSize at inside; omega)
      rcases Nat.mod_two_eq_zero_or_one i with even | odd
      · have index : 2 * (i / 2) = i := by omega
        simpa only [dataAt, index] using here.1
      · have index : 2 * (i / 2) + 1 = i := by omega
        simpa only [attributeAt, index] using here.2
    · rw [Array.getElem?_eq_none (by omega), Array.getElem?_eq_none (by omega)]
  subst equal
  rfl

theorem wrap_lt (address : Int) : wrap address < addressCount := by
  unfold wrap addressCount
  omega

theorem dataAt_storeData (image : Image) (address value : Int) (i : Nat) :
    (image.storeData address value).dataAt i =
      if i = wrap address then dataByte value else image.dataAt i := by
  have bound := wrap_lt address
  have size := image.size_cells
  unfold imageSize at size
  simp only [storeData, dataAt]
  grind

theorem attributeAt_storeData (image : Image) (address value : Int) (i : Nat) :
    (image.storeData address value).attributeAt i = image.attributeAt i := by
  simp only [storeData, attributeAt]
  grind

theorem attributeAt_storeAttribute (image : Image) (address value : Int) (i : Nat) :
    (image.storeAttribute address value).attributeAt i =
      if i = wrap address then attributeByte value else image.attributeAt i := by
  have bound := wrap_lt address
  have size := image.size_cells
  unfold imageSize at size
  simp only [storeAttribute, attributeAt]
  grind

theorem dataAt_storeAttribute (image : Image) (address value : Int) (i : Nat) :
    (image.storeAttribute address value).dataAt i = image.dataAt i := by
  simp only [storeAttribute, dataAt]
  grind

theorem dataAt_uniform (value access : Int) {i : Nat} (inside : i < addressCount) :
    (uniform value access).dataAt i = dataByte value := by
  have : 2 * i < imageSize := by unfold imageSize; omega
  simp [uniform, dataAt, this]

theorem attributeAt_uniform (value access : Int) {i : Nat} (inside : i < addressCount) :
    (uniform value access).attributeAt i = attributeByte access := by
  have : 2 * i + 1 < imageSize := by unfold imageSize; omega
  simp [uniform, attributeAt, this, Nat.add_mod]

theorem writeData_eq_ok {image result : Image} {start : Int} {payload : Bytes} :
    image.writeData start payload = .ok result ↔
      Covers start payload.length ∧
        result.cells = writeAlternate image.cells (2 * start.toNat) payload := by
  rcases result with ⟨cells, _⟩
  unfold writeData
  split <;> simp_all [eq_comm]

theorem dataAt_writeData {image result : Image} {start : Int} {payload : Bytes}
    (written : image.writeData start payload = .ok result) (i : Nat) :
    result.dataAt i =
      if start ≤ i ∧ i < start + payload.length then payload[i - start.toNat]?.getD 0
      else image.dataAt i := by
  obtain ⟨⟨_, _, _⟩, cells⟩ := writeData_eq_ok.mp written
  have size := image.size_cells
  unfold imageSize at size
  rw [dataAt, cells, getElem?_writeAlternate]
  have half : (2 * i - 2 * start.toNat) / 2 = i - start.toNat := by omega
  rw [half]
  unfold dataAt
  grind

theorem attributeAt_writeData {image result : Image} {start : Int} {payload : Bytes}
    (written : image.writeData start payload = .ok result) (i : Nat) :
    result.attributeAt i = image.attributeAt i := by
  obtain ⟨_, cells⟩ := writeData_eq_ok.mp written
  rw [attributeAt, cells, getElem?_writeAlternate, attributeAt]
  grind

theorem writeData_isOk {image : Image} {start : Int} {payload : Bytes} :
    (∃ result, image.writeData start payload = .ok result) ↔ Covers start payload.length := by
  unfold writeData
  split <;> simp_all

theorem fillData_eq_ok {image result : Image} {start last value : Int} :
    image.fillData start last value = .ok result ↔
      Covers start (last - start + 1) ∧
        image.writeData start (List.replicate (last - start + 1).toNat (dataByte value)) =
          .ok result := by
  unfold fillData
  simp only
  split <;> simp_all

theorem dataAt_fillData {image result : Image} {start last value : Int}
    (filled : image.fillData start last value = .ok result) (i : Nat) :
    result.dataAt i =
      if start ≤ i ∧ i ≤ last then dataByte value else image.dataAt i := by
  obtain ⟨⟨_, _, _⟩, written⟩ := fillData_eq_ok.mp filled
  rw [dataAt_writeData written]
  grind

theorem attributeAt_fillData {image result : Image} {start last value : Int}
    (filled : image.fillData start last value = .ok result) (i : Nat) :
    result.attributeAt i = image.attributeAt i :=
  attributeAt_writeData (fillData_eq_ok.mp filled).2 i

theorem fillData_isOk {image : Image} {start last value : Int} :
    (∃ result, image.fillData start last value = .ok result) ↔
      Covers start (last - start + 1) := by
  unfold fillData writeData
  simp only [List.length_replicate]
  split
  · rename_i covers
    have : ((last - start + 1).toNat : Int) = last - start + 1 := by
      obtain ⟨_, _, _⟩ := covers
      omega
    simp_all
  · simp_all

theorem setAttributes_eq_ok {image result : Image} {start count access : Int} :
    image.setAttributes start count access = .ok result ↔
      Covers start count ∧
        result.cells = writeAlternate image.cells (2 * start.toNat + 1)
          (List.replicate count.toNat (attributeByte access)) := by
  rcases result with ⟨cells, _⟩
  unfold setAttributes
  split <;> simp_all [eq_comm]

theorem attributeAt_setAttributes {image result : Image} {start count access : Int}
    (written : image.setAttributes start count access = .ok result) (i : Nat) :
    result.attributeAt i =
      if start ≤ i ∧ i < start + count then attributeByte access else image.attributeAt i := by
  obtain ⟨⟨_, _, _⟩, cells⟩ := setAttributes_eq_ok.mp written
  have size := image.size_cells
  unfold imageSize at size
  rw [attributeAt, cells, getElem?_writeAlternate]
  have half : (2 * i + 1 - (2 * start.toNat + 1)) / 2 = i - start.toNat := by omega
  rw [half]
  unfold attributeAt
  grind

theorem dataAt_setAttributes {image result : Image} {start count access : Int}
    (written : image.setAttributes start count access = .ok result) (i : Nat) :
    result.dataAt i = image.dataAt i := by
  obtain ⟨_, cells⟩ := setAttributes_eq_ok.mp written
  rw [dataAt, cells, getElem?_writeAlternate, dataAt]
  grind

theorem setAttributes_isOk {image : Image} {start count access : Int} :
    (∃ result, image.setAttributes start count access = .ok result) ↔ Covers start count := by
  unfold setAttributes
  split <;> simp_all

theorem writeCells_eq_ok {image result : Image} {start : Int} {payload : Bytes} :
    image.writeCells start payload = .ok result ↔
      payload.length % 2 = 0 ∧ Covers start (payload.length / 2 : Nat) ∧
        result.cells = writeConsecutive image.cells (2 * start.toNat) payload := by
  rcases result with ⟨cells, _⟩
  unfold writeCells
  split
  · simp_all
  · split <;> simp_all [eq_comm]

theorem dataAt_writeCells {image result : Image} {start : Int} {payload : Bytes}
    (written : image.writeCells start payload = .ok result) (i : Nat) :
    result.dataAt i =
      if start ≤ i ∧ i < start + (payload.length / 2 : Nat) then
        payload[2 * (i - start.toNat)]?.getD 0
      else image.dataAt i := by
  obtain ⟨_, ⟨_, _, _⟩, cells⟩ := writeCells_eq_ok.mp written
  have size := image.size_cells
  unfold imageSize at size
  rw [dataAt, cells, getElem?_writeConsecutive]
  have offset : 2 * i - 2 * start.toNat = 2 * (i - start.toNat) := by omega
  rw [offset]
  unfold dataAt
  grind

theorem attributeAt_writeCells {image result : Image} {start : Int} {payload : Bytes}
    (written : image.writeCells start payload = .ok result) (i : Nat) :
    result.attributeAt i =
      if start ≤ i ∧ i < start + (payload.length / 2 : Nat) then
        payload[2 * (i - start.toNat) + 1]?.getD 0
      else image.attributeAt i := by
  obtain ⟨_, ⟨_, _, _⟩, cells⟩ := writeCells_eq_ok.mp written
  have size := image.size_cells
  unfold imageSize at size
  rw [attributeAt, cells, getElem?_writeConsecutive]
  unfold attributeAt
  by_cases inside : start.toNat ≤ i
  · have offset : 2 * i + 1 - 2 * start.toNat = 2 * (i - start.toNat) + 1 := by omega
    rw [offset]
    grind
  · grind

theorem writeCells_isOk {image : Image} {start : Int} {payload : Bytes} :
    (∃ result, image.writeCells start payload = .ok result) ↔
      payload.length % 2 = 0 ∧ Covers start (payload.length / 2 : Nat) := by
  unfold writeCells
  split
  · simp_all
  · split <;> simp_all

theorem readCells_eq_ok {image : Image} {start count : Int} {bytes : Bytes}
    (read : image.readCells start count = .ok bytes) :
    Covers start count ∧ bytes.length = 2 * count.toNat ∧
      ∀ i < count.toNat, bytes[2 * i]? = some (image.dataAt (start.toNat + i)) ∧
        bytes[2 * i + 1]? = some (image.attributeAt (start.toNat + i)) := by
  unfold readCells at read
  split at read
  · rename_i covers
    have bounds := covers
    obtain ⟨_, _, _⟩ := bounds
    have size := image.size_cells
    unfold imageSize at size
    cases read
    refine ⟨covers, by simp; omega, fun i inside => ?_⟩
    unfold dataAt attributeAt
    simp only [Array.getElem?_toList, Array.getElem?_extract]
    grind
  · cases read

end MemoryBoard.Image
