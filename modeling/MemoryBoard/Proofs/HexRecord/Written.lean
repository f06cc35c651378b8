import MemoryBoard.Proofs.Chunks
import MemoryBoard.Proofs.HexRecord.Chain
import MemoryBoard.Proofs.HexRecord.Line
import MemoryBoard.Proofs.Text.Ascii
import MemoryBoard.Proofs.Text.Blank
import MemoryBoard.Proofs.Text.Lines

set_option autoImplicit false

namespace MemoryBoard.HexRecord

open Text

theorem Dialect.bytesPerLine_pos (dialect : Dialect) : 0 < dialect.bytesPerLine := by
  cases dialect <;> decide

theorem recordsOf_nil (dialect : Dialect) (base : Int) : recordsOf dialect base [] = [] := by
  rw [recordsOf, chunks_nil, List.mapIdx_nil]

/-- The first record takes a full line of bytes, and the others go on behind it. -/
theorem recordsOf_of_ne_nil (dialect : Dialect) (base : Int) {data : Bytes} (some : data ≠ []) :
    recordsOf dialect base data =
      ⟨(base % 65536).toNat, data.take dialect.bytesPerLine⟩ ::
        recordsOf dialect (base + dialect.bytesPerLine) (data.drop dialect.bytesPerLine) := by
  rw [recordsOf, chunks_of_ne_nil some dialect.bytesPerLine_pos, List.mapIdx_cons, recordsOf]
  congr 1
  · simp only [Int.natCast_zero, Int.mul_zero, Int.add_zero]
  · congr 1
    funext index piece
    have shift : base + dialect.bytesPerLine * ((index + 1 : Nat) : Int) =
        base + dialect.bytesPerLine + dialect.bytesPerLine * (index : Int) := by
      rw [Int.natCast_add, Int.mul_add, Int.natCast_one, Int.mul_one]
      omega
    rw [shift]

theorem payload_recordsOf (dialect : Dialect) (base : Int) (data : Bytes) :
    (recordsOf dialect base data).map Record.payload = chunks dialect.bytesPerLine data := by
  rw [recordsOf, List.mapIdx_eq_zipIdx_map, List.map_map]
  exact List.zipIdx_map_fst 0 (chunks dialect.bytesPerLine data)

theorem payloads_recordsOf (dialect : Dialect) (base : Int) (data : Bytes) :
    payloads (recordsOf dialect base data) = data := by
  rw [payloads, List.flatMap_def, payload_recordsOf, flatten_chunks dialect.bytesPerLine_pos]

theorem length_recordsOf (dialect : Dialect) (base : Int) (data : Bytes) :
    (recordsOf dialect base data).length =
      (data.length + dialect.bytesPerLine - 1) / dialect.bytesPerLine := by
  rw [recordsOf, List.length_mapIdx, length_chunks dialect.bytesPerLine_pos]

theorem recordsOf_eq_nil_iff (dialect : Dialect) (base : Int) (data : Bytes) :
    recordsOf dialect base data = [] ↔ data = [] := by
  constructor
  · intro nothing
    rw [← payloads_recordsOf dialect base data, nothing]
    rfl
  · intro nothing
    rw [nothing, recordsOf_nil]

theorem length_recordsOf_lt (dialect : Dialect) (base : Int) {data : Bytes}
    (room : data.length ≤ 65536) : (recordsOf dialect base data).length < 65536 := by
  rw [length_recordsOf]
  cases dialect <;> simp only [Dialect.bytesPerLine] <;> omega

/-- As long as the bytes stay in the address space no address wraps around. -/
theorem chained_recordsOf (dialect : Dialect) {base : Nat} {data : Bytes}
    (inSpace : base + data.length ≤ 65536) : Chained base (recordsOf dialect base data) := by
  induction count : data.length using Nat.strongRecOn generalizing base data with
  | ind count ih =>
    by_cases nothing : data = []
    · rw [nothing, recordsOf_nil]
      trivial
    · have present : 0 < data.length := List.length_pos_iff.mpr nothing
      have step := dialect.bytesPerLine_pos
      rw [recordsOf_of_ne_nil dialect base nothing]
      refine ⟨by simp only; omega, ?_⟩
      by_cases full : dialect.bytesPerLine ≤ data.length
      · have taken : (data.take dialect.bytesPerLine).length = dialect.bytesPerLine :=
          List.length_take_of_le full
        have left : (data.drop dialect.bytesPerLine).length =
            data.length - dialect.bytesPerLine := List.length_drop
        rw [taken, ← Int.natCast_add]
        exact ih (data.drop dialect.bytesPerLine).length (by omega) (by omega) rfl
      · have empty : data.drop dialect.bytesPerLine = [] :=
          List.drop_eq_nil_of_le (by omega)
        rw [empty, recordsOf_nil]
        trivial

theorem fits_of_mem_recordsOf {dialect : Dialect} {base capacity : Nat} {data : Bytes}
    (inSpace : base + data.length ≤ 65536) (inside : base + data.length ≤ capacity)
    {record : Record} (member : record ∈ recordsOf dialect base data) : record.Fits capacity := by
  have chain := chained_recordsOf dialect inSpace
  have bounds := chain.bounds member
  rw [payloads_recordsOf] at bounds
  have piece : record.payload ∈ chunks dialect.bytesPerLine data := by
    rw [← payload_recordsOf dialect base data]
    exact List.mem_map_of_mem member
  obtain ⟨nonempty, short⟩ := ne_nil_of_mem_chunks piece
  have present : 0 < record.payload.length := List.length_pos_iff.mpr nonempty
  have line : dialect.bytesPerLine < 256 := by cases dialect <;> decide
  exact ⟨nonempty, by omega, by omega, by omega⟩

/-- Characters of a written line are markers and hex digits. -/
def IsRecordChar (c : Char) : Prop :=
  c = ':' ∨ c = ';' ∨ isHexDigit c = true

theorem IsRecordChar.plain {c : Char} (char : IsRecordChar c) : c ≠ '\n' ∧ IsPlainAscii c := by
  rcases char with rfl | rfl | digit
  · exact ⟨by decide, by decide, by decide⟩
  · exact ⟨by decide, by decide, by decide⟩
  · refine ⟨?_, isPlainAscii_of_isHexDigit digit⟩
    rintro rfl
    exact absurd digit (by decide)

theorem isRecordChar_hexField {width n : Nat} {c : Char} (member : c ∈ hexField width n) :
    IsRecordChar c :=
  Or.inr (Or.inr (isHexDigit_of_mem_hexField member))

theorem isRecordChar_zeros {c : Char} (member : c ∈ ['0', '0']) : IsRecordChar c := by
  have zeros : ['0', '0'] = hexField 2 0 := by decide
  rw [zeros] at member
  exact isRecordChar_hexField member

namespace Dialect

theorem isRecordChar_dataLine {dialect : Dialect} {record : Record} {c : Char}
    (member : c ∈ dialect.dataLine record) : IsRecordChar c := by
  rw [dataLine_eq] at member
  simp only [List.mem_append, List.mem_singleton] at member
  rcases member with marked | count | address | type | payload | sum
  · cases dialect with
    | intel => exact Or.inl marked
    | papertape => exact Or.inr (Or.inl marked)
  · exact isRecordChar_hexField count
  · exact isRecordChar_hexField address
  · cases dialect with
    | intel => exact isRecordChar_zeros type
    | papertape => cases type
  · rw [payloadText, List.mem_flatMap] at payload
    obtain ⟨byte, _, digit⟩ := payload
    exact isRecordChar_hexField digit
  · exact isRecordChar_hexField sum

theorem isRecordChar_terminalLine {dialect : Dialect} {before : Nat} {c : Char}
    (member : c ∈ dialect.terminalLine before) : IsRecordChar c := by
  cases dialect with
  | intel =>
    have spelled : terminalLine .intel before = ':' :: hexField 10 0x1ff := rfl
    rw [spelled] at member
    rcases List.mem_cons.mp member with marked | digit
    · exact Or.inl marked
    · exact isRecordChar_hexField digit
  | papertape =>
    rw [terminalLine, List.mem_append, List.mem_append] at member
    rcases member with (front | lines) | sum
    · rcases List.mem_cons.mp front with marked | zero
      · exact Or.inr (Or.inl marked)
      · exact isRecordChar_zeros zero
    · exact isRecordChar_hexField lines
    · exact isRecordChar_hexField sum

end Dialect

theorem isRecordChar_linesOf {dialect : Dialect} {base : Int} {data : Bytes} {line : List Char}
    (member : line ∈ linesOf dialect base data) {c : Char} (inside : c ∈ line) :
    IsRecordChar c := by
  simp only [linesOf, List.mem_append, List.mem_map, List.mem_singleton] at member
  rcases member with ⟨record, _, rfl⟩ | rfl
  · exact Dialect.isRecordChar_dataLine inside
  · exact Dialect.isRecordChar_terminalLine inside

theorem feed_not_mem_linesOf {dialect : Dialect} {base : Int} {data : Bytes} :
    ∀ line ∈ linesOf dialect base data, '\n' ∉ line := by
  intro line member inside
  exact (isRecordChar_linesOf member inside).plain.1 rfl

theorem trimLine_append {line ending : List Char} (chars : ∀ c ∈ line, IsRecordChar c)
    (returns : ∀ c ∈ ending, c = '\r') : trimLine (line ++ ending) = line := by
  have plain : ∀ c ∈ line, (c == '\r') = false := by
    intro c inside
    exact beq_false_of_ne (chars c inside).plain.2.2
  rw [trimLine, dropWhileEnd_of_all line (fun c inside => beq_iff_eq.mpr (returns c inside)),
    dropWhileEnd_of_none plain]

/-- Trimming takes carriage returns off a written line and nothing else. -/
theorem trimLine_linesOf {dialect : Dialect} {base : Int} {data : Bytes} {line : List Char}
    (member : line ∈ linesOf dialect base data) {ending : List Char}
    (returns : ∀ c ∈ ending, c = '\r') : trimLine (line ++ ending) = line :=
  trimLine_append (fun _ inside => isRecordChar_linesOf member inside) returns

theorem isPlainAscii_write {dialect : Dialect} {cells : Bytes} {base : Int} :
    ∀ c ∈ write dialect cells base, IsPlainAscii c := by
  intro c member
  obtain ⟨line, written, inside⟩ := List.mem_flatMap.mp member
  rcases List.mem_append.mp inside with early | feed
  · exact (isRecordChar_linesOf written early).plain.2
  · rw [List.mem_singleton.mp feed]
    exact ⟨by decide, by decide⟩

theorem write_eq_joinLines (dialect : Dialect) (cells : Bytes) (base : Int) :
    write dialect cells base = joinLines (linesOf dialect base cells.evens) := rfl

/-- The records of a written file, whatever line ends it has and whatever text follows. -/
theorem records_written (dialect : Dialect) {capacity base : Nat} {data : Bytes}
    (inSpace : base + data.length ≤ 65536) (inside : base + data.length ≤ capacity)
    {ending : List Char} (returns : ∀ c ∈ ending, c = '\r')
    (further : List Char) (defect : Option Defect) :
    records dialect capacity
        ⟨joinLines ((linesOf dialect base data).map (· ++ ending)) ++ further, defect⟩ =
      .ok (recordsOf dialect base data) := by
  have plain : ∀ line ∈ (linesOf dialect base data).map (· ++ ending), '\n' ∉ line := by
    intro line member feed
    obtain ⟨front, written, rfl⟩ := List.mem_map.mp member
    rcases List.mem_append.mp feed with early | late
    · exact feed_not_mem_linesOf front written early
    · exact absurd (returns '\n' late) (by decide)
  obtain ⟨more, lines⟩ := Source.lines_joinLines plain further defect
  have trimmed : ((linesOf dialect base data).map (· ++ ending)).map trimLine =
      linesOf dialect base data := by
    rw [List.map_map]
    calc (linesOf dialect base data).map (trimLine ∘ (· ++ ending))
        = (linesOf dialect base data).map id :=
          List.map_congr_left fun line member => trimLine_linesOf member returns
      _ = linesOf dialect base data := List.map_id _
  have room : (recordsOf dialect base data).length < 65536 :=
    length_recordsOf_lt dialect base (by omega)
  have fit : ∀ record ∈ recordsOf dialect base data, record.Fits capacity := fun record member =>
    fits_of_mem_recordsOf inSpace inside member
  unfold records
  simp only
  rw [lines, List.map_append, trimmed, linesOf, List.append_assoc, List.singleton_append]
  exact recordsFrom_of_isFile (isFile_lines dialect fit room (more.map trimLine))

end MemoryBoard.HexRecord
