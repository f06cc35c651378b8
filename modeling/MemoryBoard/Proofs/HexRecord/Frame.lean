import MemoryBoard.Proofs.HexRecord.Line

set_option autoImplicit false

namespace MemoryBoard.HexRecord

open Text

variable {dialect : Dialect} {capacity before number : Nat} {record : Record}
  {line text front back digits : List Char} {bytes others : Bytes}

theorem BytePairs.append {more : List Char} (pairs : BytePairs text bytes)
    (further : BytePairs more others) : BytePairs (text ++ more) (bytes ++ others) := by
  induction pairs with
  | nil => exact further
  | cons pair _ ih =>
    rw [List.append_assoc]
    exact .cons pair ih

theorem bytePairs_append {pair : List Char} (length : pair.length = 2) :
    BytePairs (pair ++ text) others ↔
      ∃ byte bytes, others = byte :: bytes ∧ IsHexField 2 pair byte.toNat ∧
        BytePairs text bytes := by
  constructor
  · intro pairs
    generalize whole : pair ++ text = digits at pairs
    cases pairs with
    | nil =>
      rw [(List.append_eq_nil_iff.mp whole).1] at length
      cases length
    | @cons _ _ byte bytes field further =>
      obtain ⟨rfl, rfl⟩ := List.append_inj whole (length.trans field.1.symm)
      exact ⟨byte, bytes, rfl, field, further⟩
  · intro ⟨byte, bytes, same, field, further⟩
    rw [same]
    exact .cons field further

theorem BytePairs.unique (pairs : BytePairs text bytes) (again : BytePairs text others) :
    bytes = others := by
  have lengths := pairs.length.symm.trans again.length
  have one := bytePairs?_eq_some.mpr ⟨rfl, text, [], (List.append_nil text).symm, pairs⟩
  have other := bytePairs?_eq_some.mpr
    ⟨show others.length = bytes.length by omega, text, [], (List.append_nil text).symm, again⟩
  exact Option.some.inj (one.symm.trans other)

theorem bytePairs_split : BytePairs text (bytes ++ others) ↔
    ∃ front back, text = front ++ back ∧ BytePairs front bytes ∧ BytePairs back others := by
  constructor
  · intro pairs
    induction bytes generalizing text with
    | nil => exact ⟨[], text, rfl, .nil, pairs⟩
    | cons byte rest ih =>
      rw [List.cons_append] at pairs
      cases pairs with
      | @cons pair _ _ _ field further =>
        obtain ⟨front, back, rfl, first, second⟩ := ih further
        exact ⟨pair ++ front, back, (List.append_assoc pair front back).symm, .cons field first,
          second⟩
  · intro ⟨front, back, same, first, second⟩
    rw [same]
    exact first.append second

/-- What the front of a text says is the front of what the text says. -/
theorem BytePairs.isPrefix (pairs : BytePairs (front ++ back) bytes)
    (beginning : BytePairs front others) : others <+: bytes := by
  induction beginning generalizing bytes with
  | nil => exact List.nil_prefix
  | cons field _ ih =>
    rw [List.append_assoc] at pairs
    obtain ⟨byte, rest, rfl, again, further⟩ := (bytePairs_append field.1).mp pairs
    rw [UInt8.toNat_inj.mp (field.2.unique again.2)]
    exact List.cons_prefix_cons.mpr ⟨rfl, ih further⟩

theorem bytePairs_byte (small : number < 256) :
    BytePairs text [UInt8.ofNat number] ↔ IsHexField 2 text number := by
  have value : (UInt8.ofNat number).toNat = number := by
    rw [UInt8.toNat_ofNat']
    omega
  constructor
  · intro pairs
    cases pairs with
    | cons field rest =>
      cases rest
      rw [value] at field
      rwa [List.append_nil]
  · intro field
    rw [← value] at field
    rw [← List.append_nil text]
    exact .cons field .nil

theorem bytePairs_word (small : number < 65536) :
    BytePairs text [UInt8.ofNat (number / 256), UInt8.ofNat (number % 256)] ↔
      IsHexField 4 text number := by
  have bytes : [UInt8.ofNat (number / 256), UInt8.ofNat (number % 256)] =
      [UInt8.ofNat (number / 256)] ++ [UInt8.ofNat (number % 256)] := rfl
  rw [bytes, bytePairs_split]
  constructor
  · intro ⟨high, low, same, upper, lower⟩
    rw [bytePairs_byte (by omega)] at upper lower
    have whole := upper.append lower
    rwa [← same, show 256 * (number / 256) + number % 256 = number by omega] at whole
  · intro field
    obtain ⟨high, low, same, upper, lower⟩ := field.split
    exact ⟨high, low, same, (bytePairs_byte (by omega)).mpr upper,
      (bytePairs_byte (by omega)).mpr lower⟩

namespace Dialect

def typeBytes : Dialect → Bytes
  | intel => [0]
  | papertape => []

/-- What a line says in front of its checksum. -/
def body (dialect : Dialect) (record : Record) : Bytes :=
  [UInt8.ofNat record.payload.length] ++
    [UInt8.ofNat (record.address / 256), UInt8.ofNat (record.address % 256)] ++
    dialect.typeBytes ++ record.payload

/-- The checksum of a line whose bytes in front of it have some sum. -/
def checkBytes : Dialect → Nat → Bytes
  | intel, sum => [-UInt8.ofNat sum]
  | papertape, sum => [UInt8.ofNat (sum / 256), UInt8.ofNat sum]

/-- All bytes of a line. -/
def frame (dialect : Dialect) (record : Record) : Bytes :=
  dialect.body record ++ dialect.checkBytes (dialect.body record).sum

theorem length_body (dialect : Dialect) (record : Record) :
    (dialect.body record).length = 3 + dialect.typeBytes.length + record.payload.length := by
  simp only [body, List.length_append, List.length_cons, List.length_nil]

theorem length_frame (dialect : Dialect) (record : Record) :
    (dialect.frame record).length = 5 + record.payload.length := by
  rw [frame, List.length_append, length_body]
  cases dialect <;> simp only [typeBytes, checkBytes, List.length_cons, List.length_nil] <;> omega

theorem frame_eq (dialect : Dialect) (record : Record) :
    dialect.frame record = UInt8.ofNat record.payload.length ::
      UInt8.ofNat (record.address / 256) :: UInt8.ofNat (record.address % 256) ::
        (dialect.typeBytes ++
          (record.payload ++ dialect.checkBytes (dialect.body record).sum)) := by
  simp only [frame, body, List.append_assoc, List.cons_append, List.nil_append]

theorem length_checkBytes (dialect : Dialect) (sum another : Nat) :
    (dialect.checkBytes sum).length = (dialect.checkBytes another).length := by
  cases dialect <;> rfl

theorem sum_body (short : record.payload.length < 256) (addressed : record.address < 65536) :
    ((dialect.body record).sum : Int) =
      total record.payload.length record.address record.payload := by
  have type : Bytes.sum (dialect.typeBytes ++ record.payload) = record.payload.sum := by
    cases dialect with
    | intel => exact Nat.zero_add _
    | papertape => rfl
  have whole : (dialect.body record).sum = (UInt8.ofNat record.payload.length).toNat +
      ((UInt8.ofNat (record.address / 256)).toNat + ((UInt8.ofNat (record.address % 256)).toNat +
        Bytes.sum (dialect.typeBytes ++ record.payload))) := by
    rw [body, List.append_assoc]
    rfl
  rw [whole, type, total]
  simp only [UInt8.toNat_ofNat']
  omega

theorem bytePairs_type : BytePairs text dialect.typeBytes ↔ text = dialect.typeField := by
  cases dialect with
  | intel => exact (bytePairs_byte (by decide)).trans isHexField_zeros
  | papertape =>
    constructor
    · intro pairs
      cases pairs
      rfl
    · intro none
      rw [none]
      exact .nil

theorem bytePairs_checksum (short : record.payload.length < 256)
    (addressed : record.address < 65536) :
    BytePairs digits (dialect.checkBytes (dialect.body record).sum) ↔
      IsHexField dialect.checksumDigits digits
        (dialect.checksum record.payload.length record.address record.payload) := by
  have sum : ((dialect.body record).sum : Int) = _ := sum_body short addressed
  generalize (dialect.body record).sum = whole at sum ⊢
  cases dialect with
  | intel =>
    have low : -UInt8.ofNat whole = UInt8.ofNat (-(whole : Int) % 256).toNat := by
      apply UInt8.toNat_inj.mp
      rw [UInt8.toNat_neg, UInt8.toNat_ofNat', UInt8.toNat_ofNat', UInt8.size]
      omega
    rw [checkBytes, checksum.eq_def, ← sum, low]
    exact bytePairs_byte (by omega)
  | papertape =>
    have high : UInt8.ofNat (whole / 256) = UInt8.ofNat (((whole : Int) % 65536).toNat / 256) := by
      apply UInt8.toNat_inj.mp
      rw [UInt8.toNat_ofNat', UInt8.toNat_ofNat']
      omega
    have low : UInt8.ofNat whole = UInt8.ofNat (((whole : Int) % 65536).toNat % 256) := by
      apply UInt8.toNat_inj.mp
      rw [UInt8.toNat_ofNat', UInt8.toNat_ofNat']
      omega
    rw [checkBytes, checksum.eq_def, ← sum, high, low]
    exact bytePairs_word (by omega)

end Dialect

/-- Whether a line has a marker and then some bytes, and anything at all behind them. -/
def Begins (dialect : Dialect) (line : List Char) (bytes : Bytes) : Prop :=
  ∃ text rest, line = dialect.marker :: (text ++ rest) ∧ BytePairs text bytes

theorem begins_marker_iff (pairs : BytePairs text bytes) :
    Begins dialect (dialect.marker :: text) others ↔ others <+: bytes := by
  constructor
  · intro ⟨front, rest, split, beginning⟩
    rw [(List.cons.inj split).2] at pairs
    exact pairs.isPrefix beginning
  · intro ⟨more, same⟩
    rw [← same, bytePairs_split] at pairs
    obtain ⟨front, rest, rfl, beginning, _⟩ := pairs
    exact ⟨front, rest, rfl, beginning⟩

/-- A line with all bytes of a record has its fields one behind another. -/
theorem begins_frame_iff (short : record.payload.length < 256)
    (addressed : record.address < 65536) :
    Begins dialect line (dialect.frame record) ↔ ∃ count address pairs checksum rest,
      line = dialect.marker ::
        (count ++ (address ++ (dialect.typeField ++ (pairs ++ (checksum ++ rest))))) ∧
      IsHexField 2 count record.payload.length ∧ IsHexField 4 address record.address ∧
      BytePairs pairs record.payload ∧ IsHexField dialect.checksumDigits checksum
        (dialect.checksum record.payload.length record.address record.payload) := by
  simp only [← bytePairs_byte short, ← bytePairs_word addressed,
    ← Dialect.bytePairs_checksum short addressed]
  constructor
  · intro ⟨text, rest, split, pairs⟩
    obtain ⟨front, checksum, rfl, pairs, summed⟩ := bytePairs_split.mp pairs
    obtain ⟨front, payload, rfl, pairs, paired⟩ := bytePairs_split.mp pairs
    obtain ⟨front, type, rfl, pairs, typed⟩ := bytePairs_split.mp pairs
    obtain ⟨count, address, rfl, counted, addressed⟩ := bytePairs_split.mp pairs
    rw [Dialect.bytePairs_type] at typed
    refine ⟨count, address, payload, checksum, rest, ?_, counted, addressed, paired, summed⟩
    rw [split, typed]
    simp only [List.append_assoc]
  · intro ⟨count, address, payload, checksum, rest, split, counted, addressed, paired, summed⟩
    have typed : BytePairs dialect.typeField dialect.typeBytes := Dialect.bytePairs_type.mpr rfl
    refine ⟨count ++ address ++ dialect.typeField ++ payload ++ checksum, rest, ?_,
      (((counted.append addressed).append typed).append paired).append summed⟩
    rw [split]
    simp only [List.append_assoc]

/-- A data line is one that begins with all bytes of a record that fits. -/
theorem isDataLine_iff_begins : IsDataLine capacity dialect line record ↔
    record.Fits capacity ∧ Begins dialect line (dialect.frame record) := by
  rw [Dialect.isDataLine_iff]
  constructor
  · intro ⟨count, address, pairs, checksum, rest, split, spelled, summed⟩
    have fits : record.Fits capacity := ⟨List.length_pos_iff.mp spelled.nonempty,
      spelled.count.lt, spelled.address.lt, spelled.inside⟩
    exact ⟨fits, (begins_frame_iff fits.short fits.addressed).mpr ⟨count, address, pairs,
      checksum, rest, split, spelled.count, spelled.address, spelled.pairs, summed⟩⟩
  · intro ⟨fits, begins⟩
    obtain ⟨count, address, pairs, checksum, rest, split, counted, addressed, paired, summed⟩ :=
      (begins_frame_iff fits.short fits.addressed).mp begins
    exact ⟨count, address, pairs, checksum, rest, split, ⟨List.length_pos_iff.mpr fits.nonempty,
      counted, addressed, paired, fits.inside⟩, summed⟩

theorem IsDataLine.begins (data : IsDataLine capacity dialect line record) :
    Begins dialect line (dialect.frame record) :=
  (isDataLine_iff_begins.mp data).2

/-- The terminal line of a papertape file has the bytes of a record that is empty. Its address is
the number of lines in front of it. -/
theorem isTerminalLine_papertape_iff : IsTerminalLine before .papertape line ↔
    before < 65536 ∧ Begins .papertape line (Dialect.papertape.frame ⟨before, []⟩) := by
  have short : ([] : Bytes).length < 256 := by decide
  have summed (room : before < 65536) :
      Dialect.papertape.checksum ([] : Bytes).length before [] = before / 256 + before % 256 := by
    have addressed : (⟨before, []⟩ : Record).address < 65536 := room
    have whole := Dialect.checksum_eq_papertape addressed
    refine whole.trans ?_
    simp only [Record.total, List.foldl_nil, List.length_nil, BitVec.toNat_ofNat]
    omega
  constructor
  · intro terminal
    cases terminal with
    | @papertape lines sum rest counted checked =>
      have room : before < 65536 := counted.lt
      rw [← summed room] at checked
      exact ⟨room, (begins_frame_iff short room).mpr ⟨['0', '0'], lines, [], sum, rest, rfl,
        isHexField_zeros.mpr rfl, counted, .nil, checked⟩⟩
  · intro ⟨room, begins⟩
    obtain ⟨count, lines, pairs, sum, rest, rfl, zeros, counted, none, checked⟩ :=
      (begins_frame_iff short room).mp begins
    rw [isHexField_zeros.mp zeros]
    cases none
    rw [summed room] at checked
    have whole : IsTerminalLine before .papertape (";00".toList ++ (lines ++ (sum ++ rest))) :=
      .papertape counted checked
    exact whole

/-- The terminal line of an Intel file has the bytes of a record of another type. -/
theorem IsTerminalLine.begins_intel (terminal : IsTerminalLine before .intel line) :
    Begins .intel line [0, 0, 0, 1, 0xff] := by
  cases terminal with
  | @intel rest =>
    obtain ⟨_, text, more, split, pairs⟩ := bytePairs?_eq_some.mp
      (show bytePairs? 5 "00000001FF".toList = some [0, 0, 0, 1, 0xff] by decide)
    refine ⟨text, more ++ rest, ?_, pairs⟩
    rw [← List.append_assoc, ← split]
    rfl

/-- A written line has the bytes of its record and no more. -/
theorem bytePairs_dataLine (dialect : Dialect) (fits : record.Fits capacity) :
    ∃ text, dialect.dataLine record = dialect.marker :: text ∧
      BytePairs text (dialect.frame record) := by
  have counted := (bytePairs_byte fits.short).mpr (isHexField_hexField (by decide) fits.short)
  have addressed :=
    (bytePairs_word fits.addressed).mpr (isHexField_hexField (by decide) fits.addressed)
  have typed : BytePairs dialect.typeField dialect.typeBytes := Dialect.bytePairs_type.mpr rfl
  have paired := bytePairs_payloadText record.payload
  have summed := (Dialect.bytePairs_checksum fits.short fits.addressed).mpr
    (isHexField_hexField dialect.checksumDigits_pos
      (dialect.checksum_room record.payload.length record.address record.payload))
  refine ⟨_, ?_, (((counted.append addressed).append typed).append paired).append summed⟩
  rw [Dialect.dataLine_eq, Dialect.sumField]
  simp only [List.append_assoc, List.singleton_append]

variable {larger : Nat} {lines further : List (List Char)} {records more : List Record}

theorem IsDataLine.mono (data : IsDataLine capacity dialect line record)
    (wider : capacity ≤ larger) : IsDataLine larger dialect line record := by
  obtain ⟨fits, begins⟩ := isDataLine_iff_begins.mp data
  have room : record.Fits larger :=
    ⟨fits.nonempty, fits.short, fits.addressed, Nat.le_trans fits.inside wider⟩
  exact isDataLine_iff_begins.mpr ⟨room, begins⟩

theorem DataLines.mono (data : DataLines capacity dialect lines records)
    (wider : capacity ≤ larger) : DataLines larger dialect lines records := by
  induction data with
  | nil => exact .nil
  | cons first _ ih => exact .cons (first.mono wider) ih

theorem DataLines.append (data : DataLines capacity dialect lines records)
    (behind : DataLines capacity dialect further more) :
    DataLines capacity dialect (lines ++ further) (records ++ more) := by
  induction data with
  | nil => exact behind
  | cons first _ ih => exact .cons first ih

theorem IsFile.mono (file : IsFile capacity dialect lines records)
    (wider : capacity ≤ larger) : IsFile larger dialect lines records := by
  cases file with
  | intro data terminal => exact .intro (data.mono wider) terminal

end MemoryBoard.HexRecord
