import MemoryBoard.Proofs.HexRecord.Frame
import MemoryBoard.Proofs.HexRecord.Written

set_option autoImplicit false

/- A written file in which one of the records has another count. A larger count is always found out.
A smaller one goes unnoticed where the digits behind the bytes that it leaves happen to be the
checksum of just these bytes: then the file is read, and the other bytes are missing. -/
namespace MemoryBoard.HexRecord

open Text

/-- A digit of a count, the first one or the second, that is another digit now, and the count that
the two of them say with it. -/
inductive Recounts (length : Nat) (new : Char) : Nat → Nat → Prop where
  | high {value : Nat} : IsHexDigitFor value new → value ≠ length / 16 →
      Recounts length new 0 (16 * value + length % 16)
  | low {value : Nat} : IsHexDigitFor value new → value ≠ length % 16 →
      Recounts length new 1 (16 * (length / 16) + value)

/-- A record with its first bytes only. -/
def Record.shortened (record : Record) (count : Nat) : Record :=
  ⟨record.address, record.payload.take count⟩

/-- Whether the line of a record has, behind the first bytes of it, the checksum of the record with
only these. -/
def ChecksShort (dialect : Dialect) (record : Record) (count : Nat) : Prop :=
  dialect.checkBytes (dialect.body (record.shortened count)).sum <+:
    record.payload.drop count ++ dialect.checkBytes (dialect.body record).sum

instance (dialect : Dialect) (record : Record) (count : Nat) :
    Decidable (ChecksShort dialect record count) :=
  inferInstanceAs (Decidable (_ <+: _))

/-- Whether a record behind `before` lines can be read with another count. Without bytes it has to
be the terminal record. -/
structure PassesFor (dialect : Dialect) (before : Nat) (record : Record) (count : Nat) :
    Prop where
  shorter : count < record.payload.length
  checks : ChecksShort dialect record count
  ends : count = 0 → dialect = .papertape ∧ record.address = before

/-- What is left of the records where one of them is read with a smaller count. -/
def recordsLeft (records : List Record) (index : Nat) (record : Record) (count : Nat) :
    List Record :=
  if count = 0 then records.take index else records.set index (record.shortened count)

variable {dialect : Dialect} {capacity before index position count length : Nat}
  {record other : Record} {new : Char} {pair : List Char}

namespace Recounts

theorem ne (recounts : Recounts length new position count) : count ≠ length := by
  cases recounts with
  | high digit other =>
    have small := digit.lt
    omega
  | low digit other =>
    have small := digit.lt
    omega

theorem lt (recounts : Recounts length new position count) (short : length < 256) :
    count < 256 := by
  cases recounts with
  | high digit other =>
    have small := digit.lt
    omega
  | low digit other =>
    have small := digit.lt
    omega

theorem isHexDigit (recounts : Recounts length new position count) : isHexDigit new = true := by
  cases recounts with
  | high digit other => exact (isHexDigitFor_iff.mp digit).1
  | low digit other => exact (isHexDigitFor_iff.mp digit).1

theorem position_lt (recounts : Recounts length new position count) : position < 2 := by
  cases recounts <;> decide

theorem isHexField (recounts : Recounts length new position count)
    (field : IsHexField 2 pair length) : IsHexField 2 (pair.set position new) count := by
  obtain ⟨high, low, first, second, rfl, upper, lower, rfl⟩ := isHexField_two.mp field
  have small := lower.lt
  have highest : (16 * high + low) / 16 = high := by omega
  have lowest : (16 * high + low) % 16 = low := by omega
  cases recounts with
  | high digit other =>
    rw [lowest]
    exact isHexField_two.mpr ⟨_, _, new, second, rfl, digit, lower, rfl⟩
  | low digit other =>
    rw [highest]
    exact isHexField_two.mpr ⟨_, _, first, new, rfl, upper, digit, rfl⟩

end Recounts

/-- Another digit in the count makes another first byte. -/
theorem Recounts.bytePairs (recounts : Recounts record.payload.length new position count)
    (fits : record.Fits capacity) :
    ∃ text, (dialect.dataLine record).set (1 + position) new = dialect.marker :: text ∧
      BytePairs text (UInt8.ofNat count :: (dialect.frame record).tail) := by
  have value {number : Nat} (small : number < 256) : (UInt8.ofNat number).toNat = number :=
    UInt8.toNat_ofNat_of_lt' small
  obtain ⟨text, split, pairs⟩ := bytePairs_dataLine dialect fits
  rw [Dialect.frame_eq] at pairs ⊢
  cases pairs with
  | @cons pair text _ _ field behind =>
    rw [value fits.short] at field
    have inside : position < pair.length := by
      rw [field.1]
      exact recounts.position_lt
    have changed := recounts.isHexField field
    rw [← value (recounts.lt fits.short)] at changed
    refine ⟨pair.set position new ++ text, ?_, .cons changed behind⟩
    rw [split, Nat.add_comm, List.set_cons_succ, List.set_append_left _ _ inside]

theorem address_inj {address another : Nat} (small : address < 65536) (room : another < 65536)
    (high : UInt8.ofNat (address / 256) = UInt8.ofNat (another / 256))
    (low : UInt8.ofNat (address % 256) = UInt8.ofNat (another % 256)) : address = another := by
  have highs := congrArg UInt8.toNat high
  have lows := congrArg UInt8.toNat low
  simp only [UInt8.toNat_ofNat'] at highs lows
  omega

theorem append_isPrefix_iff {α : Type} {front back whole : List α} :
    front ++ back <+: whole ↔
      front = whole.take front.length ∧ back <+: whole.drop front.length := by
  constructor
  · intro ⟨more, same⟩
    rw [← same, List.append_assoc, List.take_left' rfl, List.drop_left' rfl]
    exact ⟨rfl, more, rfl⟩
  · intro ⟨taken, more, same⟩
    refine ⟨more, ?_⟩
    calc front ++ back ++ more
        = front ++ whole.drop front.length := by rw [List.append_assoc, same]
      _ = whole.take front.length ++ whole.drop front.length := by rw [← taken]
      _ = whole := List.take_append_drop _ _

namespace Recounts

/-- With another count a line has the bytes of just one record, and that is a shorter one. -/
theorem begins_iff (recounts : Recounts record.payload.length new position count)
    (fits : record.Fits capacity) (small : other.payload.length < 256)
    (room : other.address < 65536) :
    Begins dialect ((dialect.dataLine record).set (1 + position) new) (dialect.frame other) ↔
      other = record.shortened count ∧ count < record.payload.length ∧
        ChecksShort dialect record count := by
  obtain ⟨text, split, pairs⟩ := recounts.bytePairs fits
  have short := recounts.lt fits.short
  have changed := recounts.ne
  rw [split, begins_marker_iff pairs, Dialect.frame_eq, Dialect.frame_eq, List.tail_cons,
    List.cons_prefix_cons, List.cons_prefix_cons, List.cons_prefix_cons,
    List.prefix_append_right_inj, append_isPrefix_iff]
  constructor
  · intro ⟨counts, upper, lower, taken, checks⟩
    have counted : other.payload.length = count := by
      have same := congrArg UInt8.toNat counts
      simp only [UInt8.toNat_ofNat'] at same
      omega
    rw [counted] at taken checks
    have lengths := checks.length_le
    rw [List.length_drop, List.length_append,
      dialect.length_checkBytes _ (dialect.body record).sum] at lengths
    have present : 0 < (dialect.checkBytes (dialect.body record).sum).length := by
      cases dialect <;> exact Nat.succ_pos _
    have shorter : count < record.payload.length := by omega
    rw [List.take_append_of_le_length (by omega)] at taken
    rw [List.drop_append_of_le_length (by omega)] at checks
    have same : other = record.shortened count := by
      have addresses := address_inj room fits.addressed upper lower
      cases other
      simp only at taken addresses
      rw [taken, addresses, Record.shortened]
    rw [same] at checks
    exact ⟨same, shorter, checks⟩
  · intro ⟨same, shorter, checks⟩
    have counted : other.payload.length = count := by
      rw [same]
      exact List.length_take_of_le (Nat.le_of_lt shorter)
    rw [counted, List.take_append_of_le_length (Nat.le_of_lt shorter),
      List.drop_append_of_le_length (Nat.le_of_lt shorter), same]
    exact ⟨rfl, rfl, rfl, rfl, checks⟩

theorem isDataLine_iff (recounts : Recounts record.payload.length new position count)
    (fits : record.Fits capacity) :
    IsDataLine capacity dialect ((dialect.dataLine record).set (1 + position) new) other ↔
      other = record.shortened count ∧ 0 < count ∧ count < record.payload.length ∧
        ChecksShort dialect record count := by
  rw [isDataLine_iff_begins]
  constructor
  · intro ⟨others, begins⟩
    obtain ⟨same, shorter, checks⟩ :=
      (recounts.begins_iff fits others.short others.addressed).mp begins
    have filled := List.length_pos_iff.mpr others.nonempty
    rw [same, Record.shortened, List.length_take] at filled
    exact ⟨same, by omega, shorter, checks⟩
  · intro ⟨same, filled, shorter, checks⟩
    have inside := fits.inside
    have short := recounts.lt fits.short
    have length : other.payload.length = count := by
      rw [same]
      exact List.length_take_of_le (Nat.le_of_lt shorter)
    have address : other.address = record.address := by
      rw [same]
      rfl
    have others : other.Fits capacity := by
      refine ⟨List.length_pos_iff.mp (by omega), by omega, ?_, by omega⟩
      rw [address]
      exact fits.addressed
    exact ⟨others, (recounts.begins_iff fits others.short others.addressed).mpr
      ⟨same, shorter, checks⟩⟩

theorem isTerminalLine_iff (recounts : Recounts record.payload.length new position count)
    (fits : record.Fits capacity) :
    IsTerminalLine before dialect ((dialect.dataLine record).set (1 + position) new) ↔
      count = 0 ∧ PassesFor dialect before record count := by
  cases dialect with
  | intel =>
    constructor
    · intro terminal
      obtain ⟨text, split, pairs⟩ := recounts.bytePairs fits
      rw [split] at terminal
      have types := (begins_marker_iff pairs).mp terminal.begins_intel
      simp only [Dialect.frame_eq, Dialect.typeBytes, List.tail_cons, List.cons_append,
        List.cons_prefix_cons] at types
      obtain ⟨_, _, _, type, _⟩ := types
      exact absurd type (by decide)
    · rintro ⟨zero, passes⟩
      cases (passes.ends zero).1
  | papertape =>
    have short : (⟨before, []⟩ : Record).payload.length < 256 := Nat.zero_lt_succ 255
    rw [isTerminalLine_papertape_iff]
    constructor
    · rintro ⟨room, begins⟩
      obtain ⟨same, shorter, checks⟩ := (recounts.begins_iff fits short room).mp begins
      obtain ⟨address, payload⟩ := Record.mk.inj same
      have length := congrArg List.length payload
      rw [List.length_nil, List.length_take] at length
      exact ⟨by omega, shorter, checks, fun _ => ⟨rfl, address.symm⟩⟩
    · rintro ⟨zero, passes⟩
      have address := (passes.ends zero).2
      have room : before < 65536 := by
        rw [← address]
        exact fits.addressed
      have same : (⟨before, []⟩ : Record) = record.shortened count := by
        rw [zero, Record.shortened, List.take_zero, address]
      exact ⟨room, (recounts.begins_iff fits short room).mpr
        ⟨same, passes.shorter, passes.checks⟩⟩

end Recounts

variable {lines : List (List Char)} {records : List Record}

theorem dataLines_take (dialect : Dialect)
    (fit : ∀ record ∈ records, record.Fits capacity) (inside : index ≤ records.length) :
    DataLines capacity dialect ((records.take index).map dialect.dataLine) (records.take index) ∧
      ((records.take index).map dialect.dataLine).length = index := by
  constructor
  · exact dataLines_map dialect fun other member => fit other (List.mem_of_mem_take member)
  · rw [List.length_map, List.length_take_of_le inside]

/-- A changed line that passes leaves a file. -/
theorem isFile_recounted (fit : ∀ record ∈ records, record.Fits capacity)
    (room : records.length < 65536) (here : records[index]? = some record)
    (recounts : Recounts record.payload.length new position count)
    (passes : PassesFor dialect index record count) :
    IsFile capacity dialect
      ((records.take index).map dialect.dataLine ++
        (dialect.dataLine record).set (1 + position) new ::
          ((records.drop (index + 1)).map dialect.dataLine ++
            [dialect.terminalLine records.length]))
      (recordsLeft records index record count) := by
  have inside := (List.getElem?_eq_some_iff.mp here).1
  have fits := fit record (List.mem_of_getElem? here)
  obtain ⟨front, before⟩ := dataLines_take dialect fit (Nat.le_of_lt inside)
  by_cases zero : count = 0
  · have last := (recounts.isTerminalLine_iff fits).mpr ⟨zero, passes⟩
    rw [← before] at last
    rw [recordsLeft, if_pos zero]
    exact .intro front last
  · have changed : IsDataLine capacity dialect ((dialect.dataLine record).set (1 + position) new)
        (record.shortened count) :=
      (recounts.isDataLine_iff fits).mpr ⟨rfl, by omega, passes.shorter, passes.checks⟩
    have back : DataLines capacity dialect ((records.drop (index + 1)).map dialect.dataLine)
        (records.drop (index + 1)) :=
      dataLines_map dialect fun other member => fit other (List.mem_of_mem_drop member)
    have whole := front.append (.cons changed back)
    have last := dialect.isTerminalLine_terminalLine room
    have length : ((records.take index).map dialect.dataLine ++
        (dialect.dataLine record).set (1 + position) new ::
          (records.drop (index + 1)).map dialect.dataLine).length = records.length := by
      rw [List.length_append, before, List.length_cons, List.length_map, List.length_drop]
      omega
    have left : recordsLeft records index record count =
        records.take index ++ record.shortened count :: records.drop (index + 1) := by
      rw [recordsLeft, if_neg zero, List.set_eq_take_append_cons_drop, if_pos inside]
    rw [left, ← List.cons_append, ← List.append_assoc]
    exact .intro whole (by rwa [length])

/-- A changed line that does not pass is where the file is rejected. -/
theorem stopsAt_recounted (fit : ∀ record ∈ records, record.Fits capacity)
    (here : records[index]? = some record)
    (recounts : Recounts record.payload.length new position count)
    (caught : ¬ PassesFor dialect index record count) (rest : List (List Char)) :
    StopsAt capacity dialect
      ((records.take index).map dialect.dataLine ++
        (dialect.dataLine record).set (1 + position) new :: rest) (index + 1) := by
  have inside := (List.getElem?_eq_some_iff.mp here).1
  have fits := fit record (List.mem_of_getElem? here)
  have notData (other : Record) :
      ¬ IsDataLine capacity dialect ((dialect.dataLine record).set (1 + position) new) other := by
    intro data
    obtain ⟨_, filled, shorter, checks⟩ := (recounts.isDataLine_iff fits).mp data
    exact caught ⟨shorter, checks, fun zero => by omega⟩
  have notTerminal :
      ¬ IsTerminalLine index dialect ((dialect.dataLine record).set (1 + position) new) :=
    fun terminal => caught ((recounts.isTerminalLine_iff fits).mp terminal).2
  obtain ⟨front, before⟩ := dataLines_take dialect fit (Nat.le_of_lt inside)
  generalize (records.take index).map dialect.dataLine = lines at front before ⊢
  subst before
  exact .line front notData notTerminal

theorem getElem?_linesOf {base : Int} {data : Bytes}
    (here : (recordsOf dialect base data)[index]? = some record) :
    (linesOf dialect base data)[index]? = some (dialect.dataLine record) := by
  have inside := (List.getElem?_eq_some_iff.mp here).1
  rw [linesOf, List.getElem?_append_left (by rwa [List.length_map]), List.getElem?_map, here]
  rfl

/-- The lines of a written file in which a digit of a count is another one. -/
theorem textLines_recounted {cells : Bytes} {base : Int}
    (here : (recordsOf dialect base cells.evens)[index]? = some record)
    (fits : record.Fits capacity)
    (recounts : Recounts record.payload.length new position count) :
    let records := recordsOf dialect base cells.evens
    let text := write dialect cells base
    textLines (text.set (lineStart text index + (1 + position)) new) =
      (records.take index).map dialect.dataLine ++
        (dialect.dataLine record).set (1 + position) new ::
          ((records.drop (index + 1)).map dialect.dataLine ++
            [dialect.terminalLine records.length]) := by
  intro records text
  have inside : index < records.length := (List.getElem?_eq_some_iff.mp here).1
  have stands := getElem?_linesOf here
  have room : 1 + position < (dialect.dataLine record).length := by
    obtain ⟨digits, split, pairs⟩ := bytePairs_dataLine dialect fits
    have long := pairs.length
    have first := recounts.position_lt
    rw [Dialect.length_frame] at long
    rw [split, List.length_cons]
    omega
  have plain : new ≠ '\n' := (IsRecordChar.plain (Or.inr (Or.inr recounts.isHexDigit))).1
  have lines : Text.linesOf (text.set (lineStart text index + (1 + position)) new) =
      (linesOf dialect base cells.evens).set index
        ((dialect.dataLine record).set (1 + position) new) :=
    linesOf_joinLines_set feed_not_mem_linesOf stands room plain
  have trimmed : ∀ line ∈ (linesOf dialect base cells.evens).set index
      ((dialect.dataLine record).set (1 + position) new), trimLine line = line := by
    intro line member
    have chars : ∀ c ∈ line, IsRecordChar c := by
      intro c char
      rcases List.mem_or_eq_of_mem_set member with old | same
      · exact isRecordChar_linesOf old char
      · rw [same] at char
        rcases List.mem_or_eq_of_mem_set char with before | digit
        · exact Dialect.isRecordChar_dataLine before
        · rw [digit]
          exact Or.inr (Or.inr recounts.isHexDigit)
    have whole := trimLine_append chars (fun c (none : c ∈ []) => nomatch none)
    rwa [List.append_nil] at whole
  have bound : index < (records.map dialect.dataLine).length := by rwa [List.length_map]
  rw [textLines, lines, List.map_congr_left trimmed, List.map_id', linesOf,
    List.set_append_left _ _ bound, List.set_eq_take_append_cons_drop, if_pos bound,
    List.append_assoc, List.cons_append, List.map_take, List.map_drop]

/-- In a written file the line of a record stands where that line begins. -/
theorem dataLine_isPrefix_drop {cells : Bytes} {base : Int}
    (here : (recordsOf dialect base cells.evens)[index]? = some record) :
    let text := write dialect cells base
    dialect.dataLine record <+: text.drop (lineStart text index) := by
  intro text
  have lines : Text.linesOf text = linesOf dialect base cells.evens :=
    linesOf_joinLines_eq feed_not_mem_linesOf
  have stands : (Text.linesOf text)[index]? = some (dialect.dataLine record) := by
    rw [lines, getElem?_linesOf here]
  obtain ⟨behind, split, begins⟩ := exists_eq_joinLines_append stands
  have rest : text.drop (lineStart text index) = behind := by
    rw [lineStart]
    generalize joinLines ((Text.linesOf text).take index) = before at split ⊢
    rw [split, List.drop_left' rfl]
  rwa [rest]

theorem IsFile.not_stopsAt {number : Nat} (file : IsFile capacity dialect lines records) :
    ¬ StopsAt capacity dialect lines number := by
  intro stops
  obtain ⟨fault, fails, _⟩ := recordsFrom_of_stopsAt stops
  rw [recordsFrom_of_isFile file] at fails
  cases fails

/-- A written file in which a digit of the count of a record is another one. It is rejected, and the
buffer stays as it is, unless the record passes for one with that count. Then it is read without the
other bytes of the record, or, where the count is zero, without that record and all behind it. -/
theorem read_recounted {cells : Bytes} {base : Nat}
    (inSpace : base + cells.evens.length ≤ addressCount)
    (here : (recordsOf dialect base cells.evens)[index]? = some record)
    (recounts : Recounts record.payload.length new position count) (buffer : Array UInt8) :
    let text := write dialect cells base
    let changed := text.set (lineStart text index + (1 + position)) new
    let left := recordsLeft (recordsOf dialect base cells.evens) index record count
    dialect.dataLine record <+: text.drop (lineStart text index) ∧
      (¬ PassesFor dialect index record count → ∃ number fault, fault.OfLine ∧
        read dialect ⟨changed, none⟩ buffer = (.error ⟨number, fault⟩, buffer)) ∧
      (PassesFor dialect index record count → base + cells.evens.length ≤ buffer.size →
        read dialect ⟨changed, none⟩ buffer = (.ok (blocksOf left), placeAll buffer left)) := by
  intro text changed left
  have fit {capacity : Nat} (room : base + cells.evens.length ≤ capacity) :
      ∀ record ∈ recordsOf dialect base cells.evens, record.Fits capacity :=
    fun record member => fits_of_mem_recordsOf inSpace room member
  have fits := fit (Nat.le_refl _) record (List.mem_of_getElem? here)
  have lines := textLines_recounted here fits recounts
  refine ⟨dataLine_isPrefix_drop here, fun caught => ?_, fun passes inBuffer => ?_⟩
  · rcases isFile_or_stopsAt buffer.size dialect (textLines changed) with
      ⟨found, file⟩ | ⟨number, stops⟩
    · -- A buffer that is too small could not make good what a larger one does not.
      have wide := file.mono (Nat.le_max_right (base + cells.evens.length) buffer.size)
      rw [lines] at wide
      exact absurd (stopsAt_recounted (fit (Nat.le_max_left _ _)) here recounts caught _)
        wide.not_stopsAt
    · obtain ⟨fault, fails, ofLine⟩ := recordsFrom_of_stopsAt stops
      exact ⟨number, fault, ofLine, by rw [read_eq, fails]⟩
  · have few : (recordsOf dialect base cells.evens).length < 65536 :=
      length_recordsOf_lt dialect base (Nat.le_trans (Nat.le_add_left _ _) inSpace)
    have file := isFile_recounted (fit inBuffer) few here recounts passes
    rw [← lines] at file
    rw [read_eq, recordsFrom_of_isFile file]

/-- Of two bytes the second one is the checksum of the first one alone, but not of three. -/
theorem read_recounted_short :
    let cells : Bytes := [0x00, 0, 0xff, 0]
    let buffer : Array UInt8 := #[7, 7]
    let text := write .intel cells (0 : Nat)
    text = ":0200000000FFFF\n:00000001FF\n".toList ∧
      read .intel ⟨text.set 2 '1', none⟩ buffer = (.ok [⟨0, 1, true⟩], #[0, 7]) ∧
      ∃ number fault, fault.OfLine ∧
        read .intel ⟨text.set 2 '3', none⟩ buffer = (.error ⟨number, fault⟩, buffer) := by
  intro cells buffer text
  have written : text = ":0200000000FFFF\n:00000001FF\n".toList := by decide +kernel
  have here : (recordsOf .intel (0 : Nat) cells.evens)[0]? = some ⟨0, [0x00, 0xff]⟩ := by
    decide +kernel
  have inSpace : 0 + cells.evens.length ≤ addressCount := by decide
  have shorter : Recounts 2 '1' 1 1 :=
    Recounts.low (show IsHexDigitFor 1 '1' by decide) (by decide)
  have longer : Recounts 2 '3' 1 3 :=
    Recounts.low (show IsHexDigitFor 3 '3' by decide) (by decide)
  have passes : PassesFor .intel 0 ⟨0, [0x00, 0xff]⟩ 1 := ⟨by decide, by decide, nofun⟩
  have caught : ¬ PassesFor .intel 0 ⟨0, [0x00, 0xff]⟩ 3 := fun passes =>
    absurd passes.shorter (by decide)
  have left : recordsLeft (recordsOf .intel (0 : Nat) cells.evens) 0 ⟨0, [0x00, 0xff]⟩ 1 =
      [⟨0, [0x00]⟩] := by decide +kernel
  refine ⟨written, ?_, ?_⟩
  · have result := (read_recounted inSpace here shorter buffer).2.2 passes (by decide)
    rw [left] at result
    exact result
  · exact (read_recounted inSpace here longer buffer).2.1 caught

/-- A count that is one less goes unnoticed in either dialect. The second of two bytes is lost, or
the only one, whose line then is the terminal one. -/
theorem read_count_lost :
    let intel := write .intel [0x00, 0, 0xff, 0] (0 : Nat)
    let papertape := write .papertape [0x00, 0] (0 : Nat)
    intel[2]? = some '2' ∧ ¬ SameDigit '2' '1' ∧
      read .intel ⟨intel.set 2 '1', none⟩ #[7, 7] = (.ok [⟨0, 1, true⟩], #[0, 7]) ∧
      papertape[2]? = some '1' ∧ ¬ SameDigit '1' '0' ∧
      read .papertape ⟨papertape.set 2 '0', none⟩ #[7, 7] = (.ok [], #[7, 7]) := by
  have apart {old new : Char} (other : digitValue old ≠ digitValue new) :
      ¬ SameDigit old new := by
    intro ⟨value, first, second⟩
    exact other ((isHexDigitFor_iff.mp first).2.symm.trans (isHexDigitFor_iff.mp second).2)
  intro intel papertape
  have intel_eq : intel = ":0200000000FFFF\n:00000001FF\n".toList := by decide +kernel
  have papertape_eq : papertape = ";010000000001\n;0000010001\n".toList := by decide +kernel
  rw [intel_eq, papertape_eq]
  exact ⟨by rfl, apart (by decide), by rfl, by rfl, apart (by decide), by rfl⟩

end MemoryBoard.HexRecord
