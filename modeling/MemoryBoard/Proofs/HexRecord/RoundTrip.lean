import MemoryBoard.Proofs.HexRecord.Written

set_option autoImplicit false

namespace MemoryBoard.HexRecord

open Text

/-- Reading a written file writes its bytes into the buffer in one run. -/
theorem read_joinLines (dialect : Dialect) {base : Nat} {data : Bytes} {buffer : Array UInt8}
    (inSpace : base + data.length ≤ addressCount) (inside : base + data.length ≤ buffer.size)
    {ending : List Char} (returns : ∀ c ∈ ending, c = '\r')
    (further : List Char) (defect : Option Defect) :
    read dialect ⟨joinLines ((linesOf dialect base data).map (· ++ ending)) ++ further, defect⟩
        buffer =
      (.ok (if data = [] then [] else [⟨base, data.length, true⟩]),
        Image.writeConsecutive buffer base data) := by
  have chain : Chained base (recordsOf dialect base data) := chained_recordsOf dialect inSpace
  have blocks := blocksOf_chained chain
  have placed := placeAll_chained chain buffer
  simp only [payloads_recordsOf, recordsOf_eq_nil_iff] at blocks placed
  rw [read, records_written dialect inSpace inside returns further defect]
  simp only [blocks, placed]

/-- A written file as it lies on a disk. -/
theorem read_ofFile_write (dialect : Dialect) (cells : Bytes) (base : Nat)
    (buffer : Array UInt8) (inSpace : base + cells.evens.length ≤ addressCount)
    (inside : base + cells.evens.length ≤ buffer.size) :
    read dialect (.ofFile (encodeUtf8 (write dialect cells base))) buffer =
      (.ok (if cells.evens = [] then [] else [⟨base, cells.evens.length, true⟩]),
        Image.writeConsecutive buffer base cells.evens) := by
  have none : ∀ c ∈ ([] : List Char), c = '\r' := fun _ member => by cases member
  have result := read_joinLines dialect inSpace inside none [] Option.none
  simp only [List.append_nil, List.map_id_fun'] at result
  rw [Source.ofFile_encodeUtf8 isPlainAscii_write, write_eq_joinLines]
  exact result

theorem read_write (dialect : Dialect) (cells : Bytes) (base : Nat) (buffer : Array UInt8)
    (text further : List Char) (defect : Option Defect)
    (inSpace : base + cells.evens.length ≤ addressCount)
    (inBuffer : base + cells.evens.length ≤ buffer.size)
    (written : text = write dialect cells base ∨
      text = withCarriageReturns (write dialect cells base)) :
    ∃ after : Array UInt8,
      read dialect ⟨text ++ further, defect⟩ buffer =
        (.ok (if cells.evens = [] then [] else [⟨base, cells.evens.length, true⟩]), after) ∧
      after.size = buffer.size ∧
      (∀ i < cells.evens.length, after[base + i]? = cells.evens[i]?) ∧
      ∀ i, i < base ∨ base + cells.evens.length ≤ i → after[i]? = buffer[i]? := by
  have lines : ∃ ending : List Char, (∀ c ∈ ending, c = '\r') ∧
      text = joinLines ((linesOf dialect base cells.evens).map (· ++ ending)) := by
    rcases written with plain | returned
    · refine ⟨[], by simp, ?_⟩
      rw [plain, write_eq_joinLines]
      simp only [List.append_nil, List.map_id_fun']
      rfl
    · refine ⟨['\r'], by simp, ?_⟩
      rw [returned, write_eq_joinLines, withCarriageReturns_joinLines feed_not_mem_linesOf]
  obtain ⟨ending, returns, joined⟩ := lines
  have result := read_joinLines dialect inSpace inBuffer returns further defect
  rw [← joined] at result
  refine ⟨_, result, Image.size_writeConsecutive buffer base cells.evens, ?_, ?_⟩
  · intro i inside
    have covered : base ≤ base + i ∧ base + i < base + cells.evens.length ∧
        base + i < buffer.size := by omega
    rw [Image.getElem?_writeConsecutive]
    simp only [covered, and_self, ↓reduceIte, Nat.add_sub_cancel_left]
  · intro i outside
    have uncovered : ¬ (base ≤ i ∧ i < base + cells.evens.length ∧ i < buffer.size) := by omega
    rw [Image.getElem?_writeConsecutive]
    simp only [uncovered, ↓reduceIte]

/-- Two bytes at the top of memory, with carriage returns and a stray line behind the end. -/
theorem read_write_top :
    let cells : Bytes := [0x12, 0, 0x34, 3]
    let text := withCarriageReturns (write .papertape cells (0xfffe : Nat))
    let buffer : Array UInt8 := Array.replicate addressCount 0xff
    0xfffe + cells.evens.length ≤ addressCount ∧ 0xfffe + cells.evens.length ≤ buffer.size ∧
      ∃ after : Array UInt8,
        read .papertape ⟨text ++ [';', '?'], none⟩ buffer = (.ok [⟨0xfffe, 2, true⟩], after) ∧
        after.size = buffer.size ∧
        (∀ i < cells.evens.length, after[0xfffe + i]? = cells.evens[i]?) ∧
        ∀ i, i < 0xfffe ∨ 0xfffe + cells.evens.length ≤ i → after[i]? = buffer[i]? := by
  have inSpace : 0xfffe + (Bytes.evens [0x12, 0, 0x34, 3]).length ≤ addressCount := by decide
  have inBuffer : 0xfffe + (Bytes.evens [0x12, 0, 0x34, 3]).length ≤
      (Array.replicate addressCount (0xff : UInt8)).size := by
    rw [Array.size_replicate]
    exact inSpace
  exact ⟨inSpace, inBuffer,
    read_write .papertape [0x12, 0, 0x34, 3] 0xfffe _ _ [';', '?'] none inSpace inBuffer
      (Or.inr rfl)⟩

end MemoryBoard.HexRecord
