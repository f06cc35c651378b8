import MemoryBoard.HexRecord.Writer
import MemoryBoard.Proofs.Except
import MemoryBoard.Proofs.Text.HexNumeral

set_option autoImplicit false

namespace MemoryBoard.HexRecord

open Text

/-- The sum over the count, both bytes of the address and the payload. -/
def Record.total (record : Record) : Nat :=
  record.payload.foldl (fun sum byte => sum + byte.toNat)
    (record.payload.length + record.address / 256 + record.address % 256)

/-- Two hex digits for each byte. -/
inductive BytePairs : List Char → Bytes → Prop where
  | nil : BytePairs [] []
  | cons {pair text : List Char} {byte : UInt8} {bytes : Bytes} :
      IsHexField 2 pair byte.toNat → BytePairs text bytes → BytePairs (pair ++ text) (byte :: bytes)

/-- What a record and its fields have to be in either dialect. -/
structure Spelled (capacity : Nat) (record : Record) (count address pairs : List Char) : Prop where
  nonempty : 1 ≤ record.payload.length
  count : IsHexField 2 count record.payload.length
  address : IsHexField 4 address record.address
  pairs : BytePairs pairs record.payload
  inside : record.address + record.payload.length ≤ capacity

/-- A line that holds a record of bytes below `capacity`. The checksum of an Intel record is the
two's complement of its sum in eight bits, that of a papertape record the sum in sixteen. -/
inductive IsDataLine (capacity : Nat) : Dialect → List Char → Record → Prop where
  | intel {record : Record} {count address pairs checksum rest : List Char} :
      Spelled capacity record count address pairs →
      IsHexField 2 checksum (-BitVec.ofNat 8 record.total).toNat →
      IsDataLine capacity .intel
        (':' :: (count ++ (address ++ (['0', '0'] ++ (pairs ++ (checksum ++ rest)))))) record
  | papertape {record : Record} {count address pairs checksum rest : List Char} :
      Spelled capacity record count address pairs →
      IsHexField 4 checksum (BitVec.ofNat 16 record.total).toNat →
      IsDataLine capacity .papertape
        (';' :: (count ++ (address ++ (pairs ++ (checksum ++ rest))))) record

/-- A line that ends a file in which `before` lines stand in front of it. A papertape file has their
number there, and the sum of its two bytes. -/
inductive IsTerminalLine (before : Nat) : Dialect → List Char → Prop where
  | intel {rest : List Char} : IsTerminalLine before .intel (":00000001FF".toList ++ rest)
  | papertape {lines sum rest : List Char} :
      IsHexField 4 lines before → IsHexField 4 sum (before / 256 + before % 256) →
      IsTerminalLine before .papertape (";00".toList ++ (lines ++ (sum ++ rest)))

/-- Lines that hold records, one each. -/
inductive DataLines (capacity : Nat) (dialect : Dialect) :
    List (List Char) → List Record → Prop where
  | nil : DataLines capacity dialect [] []
  | cons {line : List Char} {lines : List (List Char)} {record : Record} {records : List Record} :
      IsDataLine capacity dialect line record → DataLines capacity dialect lines records →
      DataLines capacity dialect (line :: lines) (record :: records)

/-- A file: lines that hold records, a terminal line, and anything at all behind it. -/
inductive IsFile (capacity : Nat) (dialect : Dialect) : List (List Char) → List Record → Prop where
  | intro {front rest : List (List Char)} {last : List Char} {records : List Record} :
      DataLines capacity dialect front records → IsTerminalLine front.length dialect last →
      IsFile capacity dialect (front ++ last :: rest) records

/-- The number of the first line that is neither a data line nor a terminal line, or of the last
line if they all are data lines. -/
inductive StopsAt (capacity : Nat) (dialect : Dialect) : List (List Char) → Nat → Prop where
  | line {front rest : List (List Char)} {bad : List Char} {records : List Record} :
      DataLines capacity dialect front records →
      (∀ record, ¬ IsDataLine capacity dialect bad record) →
      ¬ IsTerminalLine front.length dialect bad →
      StopsAt capacity dialect (front ++ bad :: rest) (front.length + 1)
  | ended {lines : List (List Char)} {records : List Record} :
      DataLines capacity dialect lines records → StopsAt capacity dialect lines lines.length

/-- Lines are data lines up to some point, and at that point no further one follows. -/
theorem exists_dataLines_append (capacity : Nat) (dialect : Dialect) (lines : List (List Char)) :
    ∃ front rest records, lines = front ++ rest ∧ DataLines capacity dialect front records ∧
      ∀ line ∈ rest.head?, ∀ record, ¬ IsDataLine capacity dialect line record := by
  induction lines with
  | nil => exact ⟨[], [], [], rfl, .nil, fun line member => by cases member⟩
  | cons line lines ih =>
    by_cases data : ∃ record, IsDataLine capacity dialect line record
    · obtain ⟨record, data⟩ := data
      obtain ⟨front, rest, records, split, before, behind⟩ := ih
      exact ⟨line :: front, rest, record :: records, by rw [split, List.cons_append],
        .cons data before, behind⟩
    · refine ⟨[], line :: lines, [], rfl, .nil, fun other member record holds => ?_⟩
      cases member
      exact data ⟨record, holds⟩

theorem isFile_or_stopsAt (capacity : Nat) (dialect : Dialect) (lines : List (List Char)) :
    (∃ records, IsFile capacity dialect lines records) ∨
      ∃ number, StopsAt capacity dialect lines number := by
  obtain ⟨front, rest, records, rfl, before, behind⟩ :=
    exists_dataLines_append capacity dialect lines
  cases rest with
  | nil =>
    rw [List.append_nil]
    exact Or.inr ⟨front.length, .ended before⟩
  | cons line rest =>
    by_cases terminal : IsTerminalLine front.length dialect line
    · exact Or.inl ⟨records, .intro before terminal⟩
    · exact Or.inr ⟨front.length + 1, .line before (behind line rfl) terminal⟩

variable {dialect : Dialect} {capacity before count index digits number : Nat} {record : Record}
  {front line rest : List Char} {payload : Bytes} {fault : Fault}

theorem field?_eq_some (position : front.length = index) :
    field? (front ++ rest) index digits = some number ↔
      ∃ field more, rest = field ++ more ∧ IsHexField digits field number := by
  rw [field?, List.drop_left' position, toOption_eq_some, hexDigits_eq_ok]

theorem field_eq_ok : field line index digits fault = .ok number ↔
    field? line index digits = some number := by
  unfold field
  split
  · rename_i found
    simp [found]
  · rename_i missing
    simp [missing]

theorem BytePairs.length {text : List Char} {bytes : Bytes} (pairs : BytePairs text bytes) :
    text.length = 2 * bytes.length := by
  induction pairs with
  | nil => rfl
  | cons pair _ ih =>
    rw [List.length_append, List.length_cons, pair.1, ih]
    omega

theorem toNat_byte {text : List Char} (field : IsHexField 2 text number) :
    (UInt8.ofNat number).toNat = number := by
  have small : number < 256 := field.lt
  rw [UInt8.toNat_ofNat']
  omega

theorem bytePairs?_eq_some {text : List Char} : bytePairs? count text = some payload ↔
    payload.length = count ∧ ∃ pairs more, text = pairs ++ more ∧ BytePairs pairs payload := by
  induction count generalizing text payload with
  | zero =>
    constructor
    · intro read
      cases read
      exact ⟨rfl, [], text, rfl, .nil⟩
    · intro ⟨length, _⟩
      rw [List.length_eq_zero_iff.mp length]
      rfl
  | succ count ih =>
    have step {byte : Nat} : field? text 0 2 = some byte ↔
        ∃ pair more, text = pair ++ more ∧ IsHexField 2 pair byte :=
      field?_eq_some (show ([] : List Char).length = 0 from rfl)
    simp only [bytePairs?, Option.bind_eq_bind, Option.bind_eq_some_iff, Option.pure_def,
      Option.some.injEq, step, ih]
    constructor
    · intro ⟨byte, ⟨pair, later, split, field⟩, bytes, ⟨length, pairs, more, behind, rest⟩, same⟩
      rw [split, List.drop_left' field.1] at behind
      subst same behind split
      rw [← toNat_byte field] at field
      refine ⟨by rw [List.length_cons, length], pair ++ pairs, more, ?_, .cons field rest⟩
      rw [List.append_assoc]
    · intro ⟨length, pairs, more, split, spelled⟩
      cases spelled with
      | nil => cases length
      | @cons pair pairs byte bytes field rest =>
        rw [List.append_assoc] at split
        refine ⟨byte.toNat, ⟨pair, pairs ++ more, split, field⟩, bytes,
          ⟨Nat.succ.inj length, pairs, more, ?_, rest⟩, ?_⟩
        · rw [split, List.drop_left' field.1]
        · rw [UInt8.ofNat_toNat]

theorem isHexField_zeros {field : List Char} : IsHexField 2 field 0 ↔ field = ['0', '0'] := by
  constructor
  · intro ⟨length, numeral⟩
    rw [numeral.eq_zeros, length]
    rfl
  · intro same
    have zero : IsHexDigitFor 0 '0' := by decide
    subst same
    exact ⟨rfl, HexNumeral.concat (HexNumeral.concat .nil zero) zero⟩

namespace Dialect

theorem payloadIndex_eq (dialect : Dialect) :
    dialect.payloadIndex = 7 + dialect.typeField.length := by
  cases dialect <;> rfl

/-- The characters apart from the bytes are as many in both dialects. -/
theorem frameLength_eq (dialect : Dialect) :
    frameLength = dialect.payloadIndex + dialect.checksumDigits := by
  cases dialect <;> rfl

theorem checkType_eq_ok (position : front.length = 7) :
    dialect.checkType (front ++ rest) = .ok () ↔ ∃ more, rest = dialect.typeField ++ more := by
  cases dialect with
  | papertape => simp [checkType, typeField]
  | intel =>
    have type : field? (front ++ rest) 7 2 = some 0 ↔ ∃ more, rest = typeField .intel ++ more := by
      rw [field?_eq_some position]
      simp only [isHexField_zeros]
      constructor
      · intro ⟨_, more, split, zeros⟩
        exact ⟨more, by rw [split, zeros]; rfl⟩
      · intro ⟨more, split⟩
        exact ⟨_, more, split, rfl⟩
    rw [← type, checkType]
    split
    · rename_i found
      simp [found]
    · rename_i missing
      simp [missing]

theorem foldl_sum (bytes : Bytes) (start : Nat) :
    bytes.foldl (fun sum byte => sum + byte.toNat) start = start + bytes.sum := by
  induction bytes generalizing start with
  | nil => rfl
  | cons byte rest ih =>
    rw [List.foldl_cons, ih, Nat.add_assoc]
    rfl

theorem total_eq (addressed : record.address < 65536) :
    total record.payload.length record.address record.payload = record.total := by
  have high : (record.address / 256 : Int) % 256 = (record.address / 256 : Nat) := by omega
  unfold total Record.total
  rw [high, foldl_sum]
  omega

theorem checksum_eq_intel (addressed : record.address < 65536) :
    intel.checksum record.payload.length record.address record.payload =
      (-BitVec.ofNat 8 record.total).toNat := by
  simp only [checksum, total_eq addressed, BitVec.toNat_neg, BitVec.toNat_ofNat]
  omega

theorem checksum_eq_papertape (addressed : record.address < 65536) :
    papertape.checksum record.payload.length record.address record.payload =
      (BitVec.ofNat 16 record.total).toNat := by
  simp only [checksum, total_eq addressed, BitVec.toNat_ofNat]
  omega

/-- The grammar's data lines in the parameters of the dialect. -/
theorem isDataLine_iff : IsDataLine capacity dialect line record ↔
    ∃ count address pairs checksum rest,
      line = dialect.marker ::
        (count ++ (address ++ (dialect.typeField ++ (pairs ++ (checksum ++ rest))))) ∧
      Spelled capacity record count address pairs ∧
      IsHexField dialect.checksumDigits checksum
        (dialect.checksum record.payload.length record.address record.payload) := by
  have small {capacity : Nat} {count address pairs : List Char}
      (spelled : Spelled capacity record count address pairs) : record.address < 65536 :=
    spelled.address.lt
  constructor
  · intro data
    cases data with
    | intel spelled sum =>
      rw [← checksum_eq_intel (small spelled)] at sum
      exact ⟨_, _, _, _, _, rfl, spelled, sum⟩
    | papertape spelled sum =>
      rw [← checksum_eq_papertape (small spelled)] at sum
      exact ⟨_, _, _, _, _, rfl, spelled, sum⟩
  · intro ⟨count, address, pairs, checksum, rest, split, spelled, sum⟩
    subst split
    cases dialect with
    | intel =>
      rw [checksum_eq_intel (small spelled)] at sum
      exact .intel spelled sum
    | papertape =>
      rw [checksum_eq_papertape (small spelled)] at sum
      have whole : IsDataLine capacity .papertape
          (';' :: (count ++ (address ++ (pairs ++ (checksum ++ rest))))) record :=
        .papertape spelled sum
      exact whole

end Dialect

end MemoryBoard.HexRecord
