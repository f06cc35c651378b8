import MemoryBoard.Proofs.Bytes
import MemoryBoard.Proofs.HexRecord.Frame
import MemoryBoard.Proofs.Text.Lines

set_option autoImplicit false

/- A changed character in a file of records. The sum that ends a record shows any change of one of
its digits behind the count, and so the file is rejected at that line. -/
namespace MemoryBoard.HexRecord

open Text

variable {dialect : Dialect} {capacity index position : Nat} {record other : Record}
  {old new : Char} {line text front rest : List Char} {bytes others : Bytes}

/-- A digit of another value makes another byte of its pair, and of that one only. -/
theorem BytePairs.set (pairs : BytePairs text bytes) (present : text[position]? = some old)
    (different : ¬ SameDigit old new) (changed : BytePairs (text.set position new) others) :
    ∃ index byte changedByte, bytes[index]? = some byte ∧ changedByte ≠ byte ∧
      others = bytes.set index changedByte := by
  induction pairs generalizing position others with
  | nil => cases present
  | @cons pair text byte bytes field further ih =>
    by_cases inside : position < pair.length
    · rw [List.getElem?_append_left inside] at present
      rw [List.set_append_left _ _ inside,
        bytePairs_append (by rw [List.length_set, field.1])] at changed
      obtain ⟨changedByte, same, rfl, newField, newFurther⟩ := changed
      have unequal := field.2.ne_of_set present different newField.2
      refine ⟨0, byte, changedByte, rfl, fun same => unequal (by rw [same]), ?_⟩
      rw [newFurther.unique further, List.set_cons_zero]
    · have behind : pair.length ≤ position := by omega
      rw [List.getElem?_append_right behind] at present
      rw [List.set_append_right _ _ behind, bytePairs_append field.1] at changed
      obtain ⟨same, more, rfl, newField, newFurther⟩ := changed
      obtain ⟨index, old, changedByte, here, unequal, rest⟩ := ih present newFurther
      refine ⟨index + 1, old, changedByte, here, unequal, ?_⟩
      rw [UInt8.toNat_inj.mp (newField.2.unique field.2), rest, List.set_cons_succ]

namespace Dialect

theorem checkBytes_inj {sum another : Nat}
    (same : dialect.checkBytes sum = dialect.checkBytes another) : sum % 256 = another % 256 := by
  cases dialect with
  | intel =>
    have low := congrArg UInt8.toNat (List.cons.inj same).1
    simp only [UInt8.toNat_neg, UInt8.toNat_ofNat', UInt8.size] at low
    omega
  | papertape =>
    have low := congrArg UInt8.toNat (List.cons.inj (List.cons.inj same).2).1
    rwa [UInt8.toNat_ofNat', UInt8.toNat_ofNat'] at low

/-- No line differs from another one of the same length in a single byte. -/
theorem frame_ne_set {byte changedByte : UInt8}
    (lengths : other.payload.length = record.payload.length)
    (present : (dialect.frame record)[index]? = some byte) (different : changedByte ≠ byte) :
    dialect.frame other ≠ (dialect.frame record).set index changedByte := by
  intro same
  have bodies : (dialect.body other).length = (dialect.body record).length := by
    rw [length_body, length_body, lengths]
  -- In front of the checksum the sum changes and the checksum does not, else the other way round.
  by_cases inside : index < (dialect.body record).length
  · rw [frame, List.getElem?_append_left inside] at present
    rw [frame, frame, List.set_append_left _ _ inside] at same
    obtain ⟨changed, checks⟩ := List.append_inj same (by rw [List.length_set, bodies])
    rw [changed] at checks
    exact different (Bytes.eq_of_sum_set present (checkBytes_inj checks))
  · have behind : (dialect.body record).length ≤ index := by omega
    rw [frame, List.getElem?_append_right behind] at present
    rw [frame, frame, List.set_append_right _ _ behind] at same
    obtain ⟨unchanged, checks⟩ := List.append_inj same bodies
    rw [unchanged] at checks
    have found := congrArg (·[index - (dialect.body record).length]?) checks
    have bound := (List.getElem?_eq_some_iff.mp present).1
    simp only [present, List.getElem?_set_self bound, Option.some.injEq] at found
    exact different found.symm

end Dialect

/-- Anything may stand behind a data line. -/
theorem IsDataLine.longer {whole : List Char}
    (data : IsDataLine capacity dialect line record) (begins : line <+: whole) :
    IsDataLine capacity dialect whole record := by
  obtain ⟨more, rfl⟩ := begins
  obtain ⟨count, address, pairs, checksum, rest, split, spelled, sum⟩ :=
    Dialect.isDataLine_iff.mp data
  refine Dialect.isDataLine_iff.mpr
    ⟨count, address, pairs, checksum, rest ++ more, ?_, spelled, sum⟩
  rw [split]
  simp only [List.cons_append, List.append_assoc]

theorem IsDataLine.length_le (data : IsDataLine capacity dialect line record) :
    frameLength + 2 * record.payload.length ≤ line.length := by
  obtain ⟨text, rest, split, pairs⟩ := data.begins
  have long := pairs.length
  rw [Dialect.length_frame] at long
  rw [split, List.length_cons, List.length_append, frameLength]
  omega

theorem IsDataLine.count (data : IsDataLine capacity dialect line record) :
    ∃ count behind, line = dialect.marker :: (count ++ behind) ∧
      IsHexField 2 count record.payload.length ∧ 1 ≤ record.payload.length := by
  obtain ⟨count, _, _, _, _, split, spelled, _⟩ := Dialect.isDataLine_iff.mp data
  exact ⟨count, _, split, spelled.count, spelled.nonempty⟩

theorem IsTerminalLine.count {before : Nat} (terminal : IsTerminalLine before dialect line) :
    ∃ count behind, line = dialect.marker :: (count ++ behind) ∧ IsHexField 2 count 0 := by
  have zeros : IsHexField 2 ['0', '0'] 0 := isHexField_zeros.mpr rfl
  cases terminal with
  | @intel rest => exact ⟨['0', '0'], "000001FF".toList ++ rest, rfl, zeros⟩
  | @papertape lines sum rest => exact ⟨['0', '0'], lines ++ (sum ++ rest), rfl, zeros⟩

/-- A character of a data line that is another one now, at the marker or among the digits behind
the count. -/
inductive Corrupts (record : Record) (old new : Char) : Nat → Prop where
  | marker : new ≠ old → Corrupts record old new 0
  | digit {position : Nat} : 3 ≤ position → position < frameLength + 2 * record.payload.length →
      ¬ SameDigit old new → Corrupts record old new position

/-- What can still be read of a changed line has the marker and the count that it had. -/
theorem Corrupts.count {written count behind : List Char} {number : Nat}
    (corrupts : Corrupts record old new position)
    (data : IsDataLine capacity dialect written record) (present : written[position]? = some old)
    (begins : dialect.marker :: (count ++ behind) <+: written.set position new)
    (counted : IsHexField 2 count number) :
    number = record.payload.length ∧ ∃ index, position = index + 1 ∧
      index < 10 + 2 * record.payload.length ∧ ¬ SameDigit old new := by
  obtain ⟨digits, further, split, isCount, _⟩ := data.count
  rw [split] at present begins
  cases corrupts with
  | marker different =>
    cases present
    exact absurd (List.cons_prefix_cons.mp begins).1.symm different
  | digit above below different =>
    obtain ⟨offset, rfl⟩ : ∃ offset, position = 2 + offset + 1 := ⟨position - 3, by omega⟩
    have behindCount : digits.length ≤ 2 + offset := by
      rw [isCount.1]
      omega
    rw [List.set_cons_succ, List.set_append_right _ _ behindCount] at begins
    obtain ⟨ending, whole⟩ := (List.cons_prefix_cons.mp begins).2
    rw [List.append_assoc] at whole
    obtain ⟨same, _⟩ := List.append_inj whole (counted.1.trans isCount.1.symm)
    rw [same] at counted
    refine ⟨counted.2.unique isCount.2, 2 + offset, rfl, ?_, different⟩
    rw [frameLength] at below
    omega

theorem Corrupts.refuted {written : List Char} (corrupts : Corrupts record old new position)
    (data : IsDataLine capacity dialect written record) (present : written[position]? = some old)
    (begins : front <+: written.set position new) :
    (∀ other, ¬ IsDataLine capacity dialect front other) ∧
      ∀ before, ¬ IsTerminalLine before dialect front := by
  constructor
  · intro other again
    obtain ⟨count, behind, found, counted, _⟩ := again.count
    have starts := begins
    rw [found] at starts
    obtain ⟨lengths, index, rfl, inside, different⟩ := corrupts.count data present starts counted
    obtain ⟨text, rest, split, pairs⟩ := data.begins
    obtain ⟨digits, further, splitAgain, others⟩ := again.begins
    have long := pairs.length
    have longAgain := others.length
    rw [Dialect.length_frame] at long longAgain
    have room : index < text.length := by omega
    rw [split, List.getElem?_cons_succ, List.getElem?_append_left room] at present
    rw [split, splitAgain, List.set_cons_succ, List.set_append_left _ _ room] at begins
    obtain ⟨ending, whole⟩ := (List.cons_prefix_cons.mp begins).2
    rw [List.append_assoc] at whole
    obtain ⟨rfl, _⟩ := List.append_inj whole (by rw [List.length_set]; omega)
    obtain ⟨place, byte, changedByte, here, unequal, same⟩ := pairs.set present different others
    exact Dialect.frame_ne_set lengths here unequal same
  · intro before terminal
    obtain ⟨count, behind, found, counted⟩ := terminal.count
    rw [found] at begins
    obtain ⟨lengths, _⟩ := corrupts.count data present begins counted
    obtain ⟨_, _, _, _, filled⟩ := data.count
    omega

theorem DataLines.split {lines : List (List Char)} {records : List Record}
    (data : DataLines capacity dialect lines records) (here : records[index]? = some record) :
    ∃ line, lines[index]? = some line ∧ IsDataLine capacity dialect line record ∧
      DataLines capacity dialect (lines.take index) (records.take index) := by
  induction data generalizing index with
  | nil => cases here
  | @cons line _ _ _ first _ ih =>
    cases index with
    | zero =>
      cases here
      exact ⟨line, rfl, first, .nil⟩
    | succ index =>
      obtain ⟨found, there, holds, before⟩ := ih here
      exact ⟨found, there, holds, .cons first before⟩

theorem IsFile.split {lines : List (List Char)} {records : List Record}
    (file : IsFile capacity dialect lines records) (here : records[index]? = some record) :
    ∃ line, lines[index]? = some line ∧ IsDataLine capacity dialect line record ∧
      DataLines capacity dialect (lines.take index) (records.take index) := by
  cases file with
  | @intro front rest last _ data _ =>
    obtain ⟨line, there, holds, before⟩ := data.split here
    have inside := (List.getElem?_eq_some_iff.mp there).1
    refine ⟨line, ?_, holds, ?_⟩
    · rw [List.getElem?_append_left inside, there]
    · rw [List.take_append_of_le_length (Nat.le_of_lt inside)]
      exact before

theorem isPrefix_trimLine (line : List Char) : trimLine line <+: line := by
  rw [trimLine, dropWhileEnd, ← List.reverse_suffix, List.reverse_reverse]
  exact List.dropWhile_suffix _

/-- The record at an index is that of the line there. -/
theorem IsFile.exists_line {text : List Char} {records : List Record}
    (file : IsFile capacity dialect (textLines text) records)
    (here : records[index]? = some record) :
    ∃ line, (Text.linesOf text)[index]? = some line ∧
      IsDataLine capacity dialect line record ∧
      DataLines capacity dialect ((textLines text).take index) (records.take index) ∧
      ((textLines text).take index).length = index := by
  obtain ⟨trimmed, there, data, earlier⟩ := file.split here
  have inside := (List.getElem?_eq_some_iff.mp there).1
  rw [textLines, List.getElem?_map, Option.map_eq_some_iff] at there
  obtain ⟨line, stands, rfl⟩ := there
  exact ⟨line, stands, data.longer (isPrefix_trimLine line), earlier,
    List.length_take_of_le (Nat.le_of_lt inside)⟩

theorem textLines_set {text behind : List Char}
    (split : text = joinLines ((Text.linesOf text).take index) ++ behind)
    (present : behind[position]? = some old) (new : Char) :
    ∃ line more, textLines (text.set (lineStart text index + position) new) =
      (textLines text).take index ++ line :: more ∧ line <+: behind.set position new := by
  obtain ⟨line, more, lines, front⟩ := linesOf_set split present new
  refine ⟨trimLine line, more.map trimLine, ?_, (isPrefix_trimLine line).trans front⟩
  rw [textLines, lines, List.map_append, List.map_take, List.map_cons, textLines]

/-- An accepted file is rejected at the line of any of its records in which a character other than
a digit of the count is changed to one that does not say the same. The buffer stays as it is. -/
theorem read_corrupted {text : List Char} {buffer after : Array UInt8} {blocks : List Block}
    (accepted : read dialect ⟨text, none⟩ buffer = (.ok blocks, after)) :
    ∃ records, IsFile buffer.size dialect (textLines text) records ∧
      ∀ index record, records[index]? = some record →
        ∃ written, (Text.linesOf text)[index]? = some written ∧
          frameLength + 2 * record.payload.length ≤ written.length ∧
          ∀ position old new, written[position]? = some old → Corrupts record old new position →
            text[lineStart text index + position]? = some old ∧
            ∃ fault, fault.OfLine ∧
              read dialect ⟨text.set (lineStart text index + position) new, none⟩ buffer =
                (.error ⟨index + 1, fault⟩, buffer) := by
  rw [read_eq] at accepted
  cases found : recordsFrom dialect buffer.size .unexpectedEnd 0 [] (textLines text) with
  | error error =>
    rw [found] at accepted
    cases accepted
  | ok records =>
    have file := recordsFrom_eq_ok.mp found
    refine ⟨records, file, fun index record here => ?_⟩
    obtain ⟨written, stands, data, earlier, before⟩ := file.exists_line here
    refine ⟨written, stands, data.length_le, fun position old new present corrupts => ?_⟩
    obtain ⟨behind, split, begins⟩ := exists_eq_joinLines_append stands
    have place : behind[position]? = some old := by
      obtain ⟨within, same⟩ := List.getElem?_eq_some_iff.mp present
      rw [List.prefix_iff_getElem?.mp begins position within, same]
    refine ⟨(getElem?_lineStart split position).trans place, ?_⟩
    obtain ⟨changed, more, lines, front⟩ := textLines_set split place new
    obtain ⟨notData, notTerminal⟩ := corrupts.refuted (data.longer begins) place front
    have stops : StopsAt buffer.size dialect ((textLines text).take index ++ changed :: more)
        (((textLines text).take index).length + 1) :=
      .line earlier notData (notTerminal _)
    rw [before, ← lines] at stops
    obtain ⟨fault, fails, ofLine⟩ := recordsFrom_of_stopsAt stops
    exact ⟨fault, ofLine, by rw [read_eq, fails]⟩

theorem read_corrupted_feed :
    let text := ":01000000AA55\n:00000001FF\n".toList
    read .intel ⟨text, none⟩ #[0] = (.ok [⟨0, 1, true⟩], #[0xaa]) ∧
      ∃ fault, fault.OfLine ∧
        read .intel ⟨text.set 10 '\n', none⟩ #[0] = (.error ⟨1, fault⟩, #[0]) := by
  intro text
  have accepted : read .intel ⟨text, none⟩ #[0] = (.ok [⟨0, 1, true⟩], #[0xaa]) := by rfl
  obtain ⟨records, file, corrupted⟩ := read_corrupted accepted
  have known : records = [⟨0, [0xaa]⟩] := by
    have found : recordsFrom .intel 1 .unexpectedEnd 0 [] (textLines text) =
        .ok [⟨0, [0xaa]⟩] := by rfl
    have same := (recordsFrom_eq_ok.mpr file).symm.trans found
    exact Except.ok.inj same
  obtain ⟨written, here, _, rejected⟩ := corrupted 0 ⟨0, [0xaa]⟩ (by rw [known]; rfl)
  have stands : written[10]? = some 'A' := by
    have first : (Text.linesOf text)[0]? = some ":01000000AA55".toList := by rfl
    rw [← Option.some.inj (first.symm.trans here)]
    decide +kernel
  have different : ¬ SameDigit 'A' '\n' := by
    intro ⟨value, _, feed⟩
    exact absurd (isHexDigitFor_iff.mp feed).1 (by decide)
  exact ⟨accepted, (rejected 10 'A' '\n' stands (.digit (by decide) (by decide) different)).2⟩

end MemoryBoard.HexRecord
