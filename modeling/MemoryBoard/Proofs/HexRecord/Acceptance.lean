import MemoryBoard.HexRecord.Reader
import MemoryBoard.Proofs.HexRecord.Language

set_option autoImplicit false

namespace MemoryBoard.HexRecord

open Text

variable {dialect : Dialect} {capacity before count : Nat} {record : Record} {line : List Char}
  {fault : Fault}

/-- Whether a fault is one of the line itself. -/
def Fault.OfLine (fault : Fault) : Prop :=
  ∀ cause, fault ≠ .defect cause

namespace Dialect

theorem readData_eq_ok : dialect.readData capacity count line = .ok record ↔
    field? line 3 4 = some record.address ∧ dialect.checkType line = .ok () ∧
      bytePairs? count (line.drop dialect.payloadIndex) = some record.payload ∧
      field? line (dialect.payloadIndex + 2 * count) dialect.checksumDigits =
        some (dialect.checksum count record.address record.payload) ∧
      record.address + count ≤ capacity := by
  simp only [readData, bind_eq_ok, field_eq_ok]
  constructor
  · intro ⟨address, addressed, _, typed, read⟩
    split at read
    · cases read
    rename_i payload bytes
    obtain ⟨found, summed, checked⟩ := bind_eq_ok.mp read
    split at checked
    · cases checked
    rename_i right
    split at checked
    · cases checked
    rename_i inside
    cases checked
    rw [field_eq_ok, Decidable.not_not.mp right] at summed
    exact ⟨addressed, typed, bytes, summed, by simp only; omega⟩
  · intro ⟨addressed, typed, bytes, summed, inside⟩
    have room : ¬ record.address + count > capacity := by omega
    refine ⟨record.address, addressed, (), typed, ?_⟩
    rw [bytes]
    refine bind_eq_ok.mpr ⟨_, field_eq_ok.mpr summed, ?_⟩
    simp only [ne_eq, not_true_eq_false, ↓reduceIte, room]

theorem readLine_eq_data_iff :
    dialect.readLine capacity before line = .ok (.data record) ↔
      line.head? = some dialect.marker ∧ ∃ count, field? line 1 2 = some count ∧
        frameLength + 2 * count ≤ line.length ∧ 1 ≤ count ∧
        dialect.readData capacity count line = .ok record := by
  unfold readLine
  split
  · rename_i unmarked
    simp [unmarked]
  · rename_i marked
    simp only [Decidable.not_not.mp marked, true_and, bind_eq_ok, field_eq_ok]
    constructor
    · intro ⟨count, counted, read⟩
      split at read
      · cases read
      rename_i long
      split at read
      · obtain ⟨_, _, other⟩ := bind_eq_ok.mp read
        cases other
      rename_i some
      obtain ⟨found, data, same⟩ := bind_eq_ok.mp read
      cases same
      exact ⟨count, counted, by omega, by omega, data⟩
    · intro ⟨count, counted, long, present, data⟩
      have whole : ¬ line.length < frameLength + 2 * count := by omega
      have filled : ¬ count = 0 := by omega
      refine ⟨count, counted, ?_⟩
      simp only [whole, ↓reduceIte, filled]
      exact bind_eq_ok.mpr ⟨record, data, rfl⟩

theorem readLine_eq_terminal_iff :
    dialect.readLine capacity before line = .ok .terminal ↔
      line.head? = some dialect.marker ∧ field? line 1 2 = some 0 ∧
        frameLength ≤ line.length ∧ dialect.readTerminal before line = .ok () := by
  unfold readLine
  split
  · rename_i unmarked
    simp [unmarked]
  · rename_i marked
    simp only [Decidable.not_not.mp marked, true_and, bind_eq_ok, field_eq_ok]
    constructor
    · intro ⟨count, counted, read⟩
      split at read
      · cases read
      rename_i long
      split at read
      · rename_i none
        subst none
        obtain ⟨_, ended, _⟩ := bind_eq_ok.mp read
        exact ⟨counted, by omega, ended⟩
      · obtain ⟨_, _, other⟩ := bind_eq_ok.mp read
        cases other
    · intro ⟨counted, long, ended⟩
      have whole : ¬ line.length < frameLength + 2 * 0 := by omega
      refine ⟨0, counted, ?_⟩
      simp only [whole, ↓reduceIte]
      exact bind_eq_ok.mpr ⟨(), ended, rfl⟩

/-- Each field is taken off what is left behind the ones before it. -/
theorem isDataLine_of_readLine
    (read : dialect.readLine capacity before line = .ok (.data record)) :
    IsDataLine capacity dialect line record := by
  obtain ⟨marked, count, counted, _, present, data⟩ := readLine_eq_data_iff.mp read
  obtain ⟨addressed, type, bytes, summed, inside⟩ := readData_eq_ok.mp data
  cases line with
  | nil => cases marked
  | cons first behind =>
    cases marked
    obtain ⟨countField, afterCount, rfl, countIs⟩ :=
      (field?_eq_some (show [dialect.marker].length = 1 from rfl)).mp counted
    rw [← List.cons_append] at addressed
    obtain ⟨addressField, afterAddress, rfl, addressIs⟩ :=
      (field?_eq_some (by rw [List.length_cons, countIs.1])).mp addressed
    rw [← List.cons_append, ← List.append_assoc] at type bytes summed
    have typeAt : (dialect.marker :: countField ++ addressField).length = 7 := by
      rw [List.length_append, List.length_cons, countIs.1, addressIs.1]
    obtain ⟨afterType, rfl⟩ := (checkType_eq_ok typeAt).mp type
    rw [← List.append_assoc] at bytes summed
    have payloadAt : (dialect.marker :: countField ++ addressField ++
        dialect.typeField).length = dialect.payloadIndex := by
      rw [List.length_append, typeAt, dialect.payloadIndex_eq]
    rw [List.drop_left' payloadAt] at bytes
    obtain ⟨length, pairs, afterPairs, rfl, paired⟩ := bytePairs?_eq_some.mp bytes
    rw [← List.append_assoc] at summed
    obtain ⟨sumField, rest, rfl, sumIs⟩ := (field?_eq_some
      (by rw [List.length_append, payloadAt, paired.length, length])).mp summed
    rw [← length] at countIs sumIs inside present
    exact isDataLine_iff.mpr ⟨countField, addressField, pairs, sumField, rest, rfl,
      ⟨present, countIs, addressIs, paired, inside⟩, sumIs⟩

theorem readLine_of_isDataLine (data : IsDataLine capacity dialect line record) (before : Nat) :
    dialect.readLine capacity before line = .ok (.data record) := by
  obtain ⟨count, address, pairs, checksum, rest, split, spelled, sum⟩ := isDataLine_iff.mp data
  obtain ⟨present, countIs, addressIs, paired, inside⟩ := spelled
  have frame := dialect.frameLength_eq
  have countAt : (dialect.marker :: count).length = 3 := by
    rw [List.length_cons, countIs.1]
  have typeAt : (dialect.marker :: count ++ address).length = 7 := by
    rw [List.length_append, countAt, addressIs.1]
  have payloadAt : (dialect.marker :: count ++ address ++ dialect.typeField).length =
      dialect.payloadIndex := by
    rw [List.length_append, typeAt, dialect.payloadIndex_eq]
  have sumAt : (dialect.marker :: count ++ address ++ dialect.typeField ++ pairs).length =
      dialect.payloadIndex + 2 * record.payload.length := by
    rw [List.length_append, payloadAt, paired.length]
  have behindCount : line = dialect.marker :: count ++
      (address ++ (dialect.typeField ++ (pairs ++ (checksum ++ rest)))) := split
  have behindAddress : line = dialect.marker :: count ++ address ++
      (dialect.typeField ++ (pairs ++ (checksum ++ rest))) := by
    rw [behindCount, List.append_assoc (dialect.marker :: count)]
  have behindType : line = dialect.marker :: count ++ address ++ dialect.typeField ++
      (pairs ++ (checksum ++ rest)) := by
    rw [behindAddress, List.append_assoc (dialect.marker :: count ++ address)]
  have behindPairs : line = dialect.marker :: count ++ address ++ dialect.typeField ++ pairs ++
      (checksum ++ rest) := by
    rw [behindType, List.append_assoc (dialect.marker :: count ++ address ++ dialect.typeField)]
  have counted : field? line 1 2 = some record.payload.length := by
    rw [split]
    exact (field?_eq_some (show [dialect.marker].length = 1 from rfl)).mpr ⟨count, _, rfl, countIs⟩
  have addressed : field? line 3 4 = some record.address := by
    rw [behindCount]
    exact (field?_eq_some countAt).mpr ⟨address, _, rfl, addressIs⟩
  have type : dialect.checkType line = .ok () := by
    rw [behindAddress]
    exact (checkType_eq_ok typeAt).mpr ⟨_, rfl⟩
  have bytes : bytePairs? record.payload.length (line.drop dialect.payloadIndex) =
      some record.payload := by
    rw [behindType, List.drop_left' payloadAt]
    exact bytePairs?_eq_some.mpr ⟨rfl, pairs, _, rfl, paired⟩
  have summed : field? line (dialect.payloadIndex + 2 * record.payload.length)
      dialect.checksumDigits =
        some (dialect.checksum record.payload.length record.address record.payload) := by
    rw [behindPairs]
    exact (field?_eq_some sumAt).mpr ⟨checksum, _, rfl, sum⟩
  have long : frameLength + 2 * record.payload.length ≤ line.length := by
    rw [behindPairs, List.length_append, sumAt, List.length_append, sum.1]
    omega
  refine readLine_eq_data_iff.mpr ⟨by rw [split]; rfl, _, counted, long, present, ?_⟩
  exact readData_eq_ok.mpr ⟨addressed, type, bytes, summed, inside⟩

/-- A line reads as a record just if it is a data line of the grammar. -/
theorem readLine_eq_data :
    dialect.readLine capacity before line = .ok (.data record) ↔
      IsDataLine capacity dialect line record :=
  ⟨isDataLine_of_readLine, fun data => readLine_of_isDataLine data before⟩

theorem readTerminal_papertape : readTerminal papertape before line = .ok () ↔
    field? line 3 4 = some before ∧
      field? line 7 4 = some (before / 256 % 256 + before % 256) := by
  simp only [readTerminal, bind_eq_ok, field_eq_ok]
  constructor
  · intro ⟨lines, found, ended⟩
    split at ended
    · cases ended
    rename_i right
    obtain ⟨sum, summed, ended⟩ := bind_eq_ok.mp ended
    split at ended
    · cases ended
    rename_i sumRight
    rw [field_eq_ok, Decidable.not_not.mp sumRight, Decidable.not_not.mp right] at summed
    rw [Decidable.not_not.mp right] at found
    exact ⟨found, summed⟩
  · intro ⟨found, summed⟩
    refine ⟨before, found, ?_⟩
    simp only [ne_eq, not_true_eq_false, ↓reduceIte]
    exact bind_eq_ok.mpr ⟨_, field_eq_ok.mpr summed, by simp⟩

theorem intelTerminal_iff : readLine intel capacity before line = .ok .terminal ↔
    IsTerminalLine before intel line := by
  rw [readLine_eq_terminal_iff]
  constructor
  · intro ⟨_, _, _, ended⟩
    unfold readTerminal at ended
    simp only at ended
    split at ended
    · rename_i begins
      obtain ⟨rest, rfl⟩ := List.isPrefixOf_iff_prefix.mp begins
      exact .intel
    · cases ended
  · intro terminal
    cases terminal with
    | @intel rest =>
      have begins : intelTerminal.isPrefixOf (":00000001FF".toList ++ rest) = true :=
        List.isPrefixOf_iff_prefix.mpr ⟨rest, rfl⟩
      refine ⟨rfl, ?_, ?_, ?_⟩
      · rfl
      · rw [List.length_append]
        exact Nat.le_add_right _ _
      · unfold readTerminal
        simp only [begins, ↓reduceIte]

theorem high_byte {text : List Char} (lines : IsHexField 4 text before) :
    before / 256 % 256 = before / 256 := by
  have room : before < 65536 := lines.lt
  omega

theorem papertapeTerminal_iff : readLine papertape capacity before line = .ok .terminal ↔
    IsTerminalLine before papertape line := by
  rw [readLine_eq_terminal_iff, readTerminal_papertape]
  constructor
  · intro ⟨marked, counted, _, found, summed⟩
    cases line with
    | nil => cases marked
    | cons first behind =>
      cases marked
      obtain ⟨zeros, afterCount, rfl, zerosIs⟩ :=
        (field?_eq_some (show [';'].length = 1 from rfl)).mp counted
      rw [isHexField_zeros] at zerosIs
      subst zerosIs
      obtain ⟨linesField, afterLines, rfl, linesIs⟩ :=
        (field?_eq_some (show [';', '0', '0'].length = 3 from rfl)).mp found
      have sumAt : ([';', '0', '0'] ++ linesField).length = 7 := by
        rw [List.length_append, linesIs.1]
        rfl
      rw [← List.cons_append, ← List.append_assoc] at summed
      obtain ⟨sumField, rest, rfl, sumIs⟩ := (field?_eq_some sumAt).mp summed
      rw [high_byte linesIs] at sumIs
      exact .papertape linesIs sumIs
  · intro terminal
    cases terminal with
    | @papertape linesField sumField rest linesIs sumIs =>
      have sumAt : (";00".toList ++ linesField).length = 7 := by
        rw [List.length_append, linesIs.1]
        rfl
      have behind : ";00".toList ++ (linesField ++ (sumField ++ rest)) =
          ";00".toList ++ linesField ++ (sumField ++ rest) := by
        rw [List.append_assoc]
      refine ⟨rfl, ?_, ?_, ?_, ?_⟩
      · exact (field?_eq_some (show [';'].length = 1 from rfl)).mpr
          ⟨['0', '0'], _, rfl, isHexField_zeros.mpr rfl⟩
      · rw [behind, List.length_append, sumAt, List.length_append, sumIs.1, frameLength]
        omega
      · exact (field?_eq_some (show ";00".toList.length = 3 from rfl)).mpr
          ⟨linesField, _, rfl, linesIs⟩
      · rw [behind, high_byte linesIs]
        exact (field?_eq_some sumAt).mpr ⟨sumField, _, rfl, sumIs⟩

/-- A line ends the reading just if it is a terminal line of the grammar. -/
theorem readLine_eq_terminal : dialect.readLine capacity before line = .ok .terminal ↔
    IsTerminalLine before dialect line := by
  cases dialect with
  | intel => exact intelTerminal_iff
  | papertape => exact papertapeTerminal_iff

theorem field_ofLine {index digits : Nat} (ofLine : fault.OfLine) :
    FailsWith Fault.OfLine (field line index digits fault) := by
  unfold field
  split
  · exact .ok _
  · exact .error ofLine

theorem checkType_ofLine : FailsWith Fault.OfLine (dialect.checkType line) := by
  cases dialect with
  | papertape => exact .ok ()
  | intel =>
    unfold checkType
    simp only
    split
    · exact .ok ()
    · exact .error nofun

theorem readTerminal_ofLine : FailsWith Fault.OfLine (dialect.readTerminal before line) := by
  cases dialect with
  | intel =>
    unfold readTerminal
    simp only
    split
    · exact .ok ()
    · exact .error nofun
  | papertape =>
    refine .bind (field_ofLine nofun) fun lines => ?_
    split
    · exact .error nofun
    refine .bind (field_ofLine nofun) fun sum => ?_
    split
    · exact .error nofun
    · exact .ok ()

theorem readData_ofLine : FailsWith Fault.OfLine (dialect.readData capacity count line) := by
  refine .bind (field_ofLine nofun) fun address => .bind checkType_ofLine fun _ => ?_
  split
  · exact .error nofun
  refine .bind (field_ofLine nofun) fun found => ?_
  simp only
  split
  · exact .error nofun
  split
  · exact .error nofun
  · exact .ok _

/-- A line is refused for what it says, and not because it cannot be had. -/
theorem readLine_ofLine : FailsWith Fault.OfLine (dialect.readLine capacity before line) := by
  unfold readLine
  split
  · exact .error nofun
  refine .bind (field_ofLine nofun) fun count => ?_
  split
  · exact .error nofun
  split
  · exact .bind readTerminal_ofLine fun _ => .ok _
  · exact .bind readData_ofLine fun record => .ok _

theorem readLine_isError (notData : ∀ record, ¬ IsDataLine capacity dialect line record)
    (notTerminal : ¬ IsTerminalLine before dialect line) :
    ∃ fault, dialect.readLine capacity before line = .error fault := by
  cases read : dialect.readLine capacity before line with
  | error fault => exact ⟨fault, rfl⟩
  | ok found =>
    cases found with
    | data record => exact absurd (readLine_eq_data.mp read) (notData record)
    | terminal => exact absurd (readLine_eq_terminal.mp read) notTerminal

end Dialect

variable {ending : Fault} {front lines : List (List Char)} {records done : List Record}

/-- Data lines are read one by one, and the others from there. -/
theorem recordsFrom_dataLines (data : DataLines capacity dialect front records)
    (before : Nat) (done : List Record) (rest : List (List Char)) :
    recordsFrom dialect capacity ending before done (front ++ rest) =
      recordsFrom dialect capacity ending (before + front.length) (records.reverse ++ done)
        rest := by
  induction data generalizing before done with
  | nil => rfl
  | @cons line lines record records holds _ ih =>
    have first := Dialect.readLine_of_isDataLine holds before
    have shift : before + 1 + lines.length = before + (line :: lines).length := by
      rw [List.length_cons]
      omega
    rw [List.cons_append, recordsFrom, first]
    simp only
    rw [ih, shift, List.reverse_cons, List.append_assoc, List.singleton_append]

theorem recordsFrom_of_isFile (file : IsFile capacity dialect lines records) :
    recordsFrom dialect capacity ending 0 [] lines = .ok records := by
  cases file with
  | intro data terminal =>
    rw [← Nat.zero_add (List.length _)] at terminal
    rw [recordsFrom_dataLines data, recordsFrom, Dialect.readLine_eq_terminal.mpr terminal,
      List.append_nil, List.reverse_reverse]

theorem recordsFrom_of_stopsAt {number : Nat}
    (stops : StopsAt capacity dialect lines number) :
    ∃ fault, recordsFrom dialect capacity .unexpectedEnd 0 [] lines = .error ⟨number, fault⟩ ∧
      fault.OfLine := by
  cases stops with
  | line data notData notTerminal =>
    rw [← Nat.zero_add (List.length _)] at notTerminal
    obtain ⟨fault, refused⟩ := Dialect.readLine_isError notData notTerminal
    refine ⟨fault, ?_, Dialect.readLine_ofLine fault refused⟩
    rw [recordsFrom_dataLines data, recordsFrom, refused, Nat.zero_add]
  | ended data =>
    refine ⟨.unexpectedEnd, ?_, nofun⟩
    rw [← List.append_nil lines, recordsFrom_dataLines data, recordsFrom, List.append_nil,
      Nat.zero_add]

theorem recordsFrom_eq_ok : recordsFrom dialect capacity .unexpectedEnd 0 [] lines = .ok records ↔
    IsFile capacity dialect lines records := by
  constructor
  · intro reads
    rcases isFile_or_stopsAt capacity dialect lines with ⟨others, file⟩ | ⟨stop, stops⟩
    · rw [recordsFrom_of_isFile file] at reads
      cases reads
      exact file
    · obtain ⟨fault, fails, _⟩ := recordsFrom_of_stopsAt stops
      rw [fails] at reads
      cases reads
  · exact recordsFrom_of_isFile

theorem recordsFrom_eq_error {number : Nat} :
    (∃ fault, recordsFrom dialect capacity .unexpectedEnd 0 [] lines = .error ⟨number, fault⟩ ∧
        fault.OfLine) ↔ StopsAt capacity dialect lines number := by
  constructor
  · intro ⟨fault, fails, _⟩
    rcases isFile_or_stopsAt capacity dialect lines with ⟨others, file⟩ | ⟨stop, stops⟩
    · rw [recordsFrom_of_isFile file] at fails
      cases fails
    · obtain ⟨other, failed, _⟩ := recordsFrom_of_stopsAt stops
      rw [failed] at fails
      cases fails
      exact stops
  · exact recordsFrom_of_stopsAt

/-- A file is refused for one of its lines, or for how they end. -/
theorem recordsFrom_ofLine (before : Nat) (done : List Record) (lines : List (List Char)) :
    FailsWith (fun error : HexError => error.fault.OfLine ∨ error.fault = ending)
      (recordsFrom dialect capacity ending before done lines) := by
  induction lines generalizing before done with
  | nil => exact .error (Or.inr rfl)
  | cons line rest ih =>
    rw [recordsFrom]
    cases read : dialect.readLine capacity before line with
    | error fault => exact .error (Or.inl (Dialect.readLine_ofLine fault read))
    | ok found =>
      cases found with
      | terminal => exact .ok _
      | data record => exact ih _ _

/-- A text that cannot be had as a whole is the only defect that reading reports. -/
theorem read_eq_defect {source : Text.Source} {buffer after : Array UInt8} {number : Nat}
    {cause : Defect}
    (failed : read dialect source buffer = (.error ⟨number, .defect cause⟩, after)) :
    source.defect = some cause := by
  unfold read at failed
  split at failed
  · cases failed
  rename_i error refused
  cases failed
  have reason := recordsFrom_ofLine _ _ _ _ refused
  rcases reason with ofLine | ending
  · exact absurd rfl (ofLine cause)
  · cases lacks : source.defect with
    | none =>
      rw [lacks] at ending
      cases ending
    | some other =>
      rw [lacks] at ending
      cases ending
      rfl

/-- The lines of a text as they are read. -/
def textLines (text : List Char) : List (List Char) :=
  (Text.linesOf text).map trimLine

/-- Reading into a buffer goes by the records of the lines. -/
theorem read_eq (dialect : Dialect) (text : List Char) (buffer : Array UInt8) :
    read dialect ⟨text, none⟩ buffer =
      match recordsFrom dialect buffer.size .unexpectedEnd 0 [] (textLines text) with
      | .ok records => (.ok (blocksOf records), placeAll buffer records)
      | .error error => (.error error, buffer) :=
  rfl

/-- Lines are read just if they are a file, and bring the records of that file; any others are
refused at the line where they stop to be one. A text goes by its lines, and its records are placed
in the buffer. -/
theorem read_iff_file (dialect : Dialect) :
    (∀ capacity lines,
      (∀ records, recordsFrom dialect capacity .unexpectedEnd 0 [] lines = .ok records ↔
        IsFile capacity dialect lines records) ∧
      ∀ number, (∃ fault,
          recordsFrom dialect capacity .unexpectedEnd 0 [] lines = .error ⟨number, fault⟩ ∧
          fault.OfLine) ↔
        StopsAt capacity dialect lines number) ∧
    ∀ text buffer,
      (∀ blocks after, read dialect ⟨text, none⟩ buffer = (.ok blocks, after) ↔
        ∃ records, IsFile buffer.size dialect (textLines text) records ∧
          blocks = blocksOf records ∧ after = placeAll buffer records) ∧
      ∀ number, (∃ fault after,
          read dialect ⟨text, none⟩ buffer = (.error ⟨number, fault⟩, after) ∧
          fault.OfLine) ↔
        StopsAt buffer.size dialect (textLines text) number := by
  refine ⟨fun capacity lines => ⟨fun _ => recordsFrom_eq_ok, fun _ => recordsFrom_eq_error⟩,
    fun text buffer => ?_⟩
  simp only [read_eq, ← recordsFrom_eq_ok, ← recordsFrom_eq_error]
  cases recordsFrom dialect buffer.size .unexpectedEnd 0 [] (textLines text) with
  | ok found =>
    constructor
    · intro blocks after
      simp [eq_comm]
    · intro number
      simp
  | error error =>
    constructor
    · intro blocks after
      simp
    · intro number
      simp

end MemoryBoard.HexRecord
