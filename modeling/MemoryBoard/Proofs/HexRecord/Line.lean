import MemoryBoard.Proofs.HexRecord.Acceptance

set_option autoImplicit false

namespace MemoryBoard.HexRecord

open Text

/-- The bytes of a payload as they stand in a line. -/
def payloadText (payload : Bytes) : List Char :=
  payload.flatMap fun byte => hexField 2 byte.toNat

theorem bytePairs_payloadText (payload : Bytes) : BytePairs (payloadText payload) payload := by
  induction payload with
  | nil => exact .nil
  | cons byte rest ih =>
    rw [payloadText, List.flatMap_cons, ← payloadText]
    exact .cons (isHexField_hexField (by decide) byte.toNat_lt) ih

/-- Whether a record has room in a line, in the address space and in a buffer. -/
structure Record.Fits (capacity : Nat) (record : Record) : Prop where
  nonempty : record.payload ≠ []
  short : record.payload.length < 256
  addressed : record.address < 65536
  inside : record.address + record.payload.length ≤ capacity

namespace Dialect

theorem checksum_room (dialect : Dialect) (count address : Int) (payload : Bytes) :
    dialect.checksum count address payload < fieldLimit dialect.checksumDigits := by
  cases dialect with
  | intel =>
    have low := Int.emod_nonneg (-total count address payload) (show (256 : Int) ≠ 0 by decide)
    have high := Int.emod_lt_of_pos (-total count address payload) (show (0 : Int) < 256 by decide)
    change (-total count address payload % 256).toNat < 256
    omega
  | papertape =>
    have low := Int.emod_nonneg (total count address payload) (show (65536 : Int) ≠ 0 by decide)
    have high := Int.emod_lt_of_pos (total count address payload) (show (0 : Int) < 65536 by decide)
    change (total count address payload % 65536).toNat < 65536
    omega

theorem checksumDigits_pos (dialect : Dialect) : 0 < dialect.checksumDigits := by
  cases dialect <;> decide

/-- The checksum field of a data line. -/
def sumField (dialect : Dialect) (record : Record) : List Char :=
  hexField dialect.checksumDigits
    (dialect.checksum record.payload.length record.address record.payload)

/-- A data line field by field. -/
theorem dataLine_eq (dialect : Dialect) (record : Record) :
    dialect.dataLine record =
      [dialect.marker] ++ (hexField 2 record.payload.length ++ (hexField 4 record.address ++
        (dialect.typeField ++ (payloadText record.payload ++ dialect.sumField record)))) := by
  simp only [dataLine, payloadText, sumField, List.append_assoc, List.cons_append, List.nil_append]

/-- A written line holds its record. -/
theorem isDataLine_dataLine {capacity : Nat} {record : Record} (dialect : Dialect)
    (fits : record.Fits capacity) :
    IsDataLine capacity dialect (dialect.dataLine record) record := by
  have spelled : Spelled capacity record (hexField 2 record.payload.length)
      (hexField 4 record.address) (payloadText record.payload) :=
    ⟨List.length_pos_iff.mpr fits.nonempty, isHexField_hexField (by decide) fits.short,
      isHexField_hexField (by decide) fits.addressed, bytePairs_payloadText record.payload,
      fits.inside⟩
  have sum := isHexField_hexField dialect.checksumDigits_pos
    (dialect.checksum_room record.payload.length record.address record.payload)
  refine isDataLine_iff.mpr ⟨_, _, _, dialect.sumField record, [], ?_, spelled, sum⟩
  rw [dataLine_eq, List.append_nil, List.singleton_append]

/-- The line written at the end is the one that ends a file. -/
theorem isTerminalLine_terminalLine (dialect : Dialect) {before : Nat} (room : before < 65536) :
    IsTerminalLine before dialect (dialect.terminalLine before) := by
  cases dialect with
  | intel =>
    rw [show terminalLine .intel before = ":00000001FF".toList ++ [] from rfl]
    exact .intel
  | papertape =>
    have high : before / 256 % 256 = before / 256 := by omega
    have sumRoom : before / 256 + before % 256 < 65536 := by omega
    have whole : terminalLine .papertape before = ";00".toList ++
        (hexField 4 before ++ (hexField 4 (before / 256 + before % 256) ++ [])) := by
      rw [terminalLine, high, List.append_nil, List.append_assoc]
      rfl
    rw [whole]
    exact .papertape (isHexField_hexField (by decide) room)
      (isHexField_hexField (by decide) sumRoom)

end Dialect

theorem dataLines_map (dialect : Dialect) {capacity : Nat} {records : List Record}
    (fit : ∀ record ∈ records, record.Fits capacity) :
    DataLines capacity dialect (records.map dialect.dataLine) records := by
  induction records with
  | nil => exact .nil
  | cons record rest ih =>
    have later : ∀ record ∈ rest, record.Fits capacity := fun other member =>
      fit other (List.mem_cons_of_mem record member)
    exact .cons (dialect.isDataLine_dataLine (fit record List.mem_cons_self)) (ih later)

/-- Written lines are a file, whatever stands behind. -/
theorem isFile_lines (dialect : Dialect) {capacity : Nat} {records : List Record}
    (fit : ∀ record ∈ records, record.Fits capacity) (room : records.length < 65536)
    (more : List (List Char)) :
    IsFile capacity dialect
      (records.map dialect.dataLine ++ dialect.terminalLine records.length :: more) records := by
  have last := dialect.isTerminalLine_terminalLine room
  rw [← List.length_map dialect.dataLine] at last
  rw [← List.length_map dialect.dataLine]
  exact .intro (dataLines_map dialect fit) last

end MemoryBoard.HexRecord
