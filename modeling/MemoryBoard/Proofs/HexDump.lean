import Mathlib.Data.List.Forall2
import MemoryBoard.HexDump
import MemoryBoard.Proofs.Chunks
import MemoryBoard.Proofs.Text.HexNumeral
import MemoryBoard.Proofs.Text.Lines

set_option autoImplicit false

namespace MemoryBoard.HexDump

open Text

/-- The words of a text, with white space between them and around them. -/
def words (text : List Char) : List (List Char) :=
  (text.splitOnP isBlank).filter (· ≠ [])

/-- Whether digits are those of upper-case hex. -/
def IsUpper (digits : List Char) : Prop :=
  ∀ c ∈ digits, c ∈ "0123456789ABCDEF".toList

/-- An address in at least ten digits, with no more zeros in front than it takes. -/
structure IsAddress (digits : List Char) (address : Nat) : Prop where
  numeral : HexNumeral digits address
  upper : IsUpper digits
  width : 10 ≤ digits.length
  tight : 10 < digits.length → digits.head? ≠ some '0'

/-- The two digits of a byte. -/
def IsPair (digits : List Char) (byte : UInt8) : Prop :=
  IsHexField 2 digits byte.toNat ∧ IsUpper digits

/-- The columns of a row of bytes, with the ninth one and those behind it in their right half. -/
structure IsColumns (columns : List Char) (row : Bytes) : Prop where
  width : columns.length = 48
  pairs : List.Forall₂ IsPair (words columns) row
  left : List.Forall₂ IsPair (words (columns.take 24)) (row.take 8)
  right : List.Forall₂ IsPair (words (columns.drop 24)) (row.drop 8)

/-- The character that a byte is shown as. -/
def Shows (c : Char) (byte : UInt8) : Prop :=
  if 0x20 ≤ byte.toNat ∧ byte.toNat ≤ 0x7e then c.toNat = byte.toNat else c = '.'

/-- The line for a row of bytes at an address. -/
inductive IsLine (address : Nat) (row : Bytes) : List Char → Prop where
  | intro {digits columns gutter : List Char} :
      IsAddress digits address → IsColumns columns row → List.Forall₂ Shows gutter row →
      IsLine address row (digits ++ (':' :: ' ' :: (columns ++ (' ' :: ' ' :: gutter))))

/-- The bytes that a line shows, at fixed places behind its colon. -/
def rowOf (line : List Char) : Bytes :=
  (words (((line.dropWhile (· ≠ ':')).drop 2).take 48)).map fun digits =>
    UInt8.ofNat (positional 16 digits)

/-- The bytes that a dump shows. -/
def dataOf (text : List Char) : Bytes :=
  (Text.linesOf text).flatMap rowOf

variable {c : Char} {text digits : List Char} {texts : List (List Char)} {row data other : Bytes}
  {byte : UInt8} {address count : Nat}

theorem words_append_blank (blank : isBlank c = true) (front rest : List Char) :
    words (front ++ c :: rest) = words front ++ words rest := by
  rw [words, List.splitOnP_append_cons front rest blank, List.filter_append]
  rfl

theorem words_blanks (count : Nat) : words (List.replicate count ' ') = [] := by
  induction count with
  | zero => rfl
  | succ count ih =>
    rw [List.replicate_succ]
    exact (words_append_blank (by decide) [] _).trans ih

theorem words_of_plain (some : text ≠ []) (plain : ∀ c ∈ text, isBlank c = false) :
    words text = [text] := by
  rw [words, List.splitOnP_eq_singleton plain]
  simp [some]

/-- Texts with single spaces between them, and with spaces behind them, are the words there. -/
theorem words_intercalate (some : ∀ text ∈ texts, text ≠ [])
    (plain : ∀ text ∈ texts, ∀ c ∈ text, isBlank c = false) (count : Nat) :
    words (List.intercalate [' '] texts ++ List.replicate count ' ') = texts := by
  induction texts with
  | nil => exact words_blanks count
  | cons text texts ih =>
    rw [List.forall_mem_cons] at some plain
    have here := words_of_plain some.1 plain.1
    cases texts with
    | nil =>
      rw [List.intercalate_singleton]
      cases count with
      | zero => rw [List.replicate_zero, List.append_nil, here]
      | succ count =>
        rw [List.replicate_succ, words_append_blank (by decide), words_blanks, here]
        rfl
    | cons next texts =>
      rw [List.intercalate_cons_cons, List.append_assoc, List.append_assoc,
        List.singleton_append, words_append_blank (by decide), ih some.2 plain.2, here]
      rfl

theorem isUpper_hexField (width n : Nat) : IsUpper (hexField width n) :=
  forall_mem_hexField (p := (· ∈ "0123456789ABCDEF".toList)) (by decide) width n

theorem isPair_hexField (byte : UInt8) : IsPair (hexField 2 byte.toNat) byte :=
  ⟨isHexField_hexField (by decide) byte.toNat_lt, isUpper_hexField 2 byte.toNat⟩

theorem isAddress_hexField (address : Nat) : IsAddress (hexField 10 address) address := by
  have length : (hexField 10 address).length = max 10 (upperHex address).length := by
    rw [hexField, List.length_leftpad]
  refine ⟨hexNumeral_hexField 10 address, isUpper_hexField 10 address, by omega, fun long => ?_⟩
  have full : 10 - (upperHex address).length = 0 := by omega
  have unpadded : hexField 10 address = upperHex address := by
    rw [hexField, List.leftpad, full, List.replicate_zero, List.nil_append]
  rw [unpadded]
  apply head_upperHex
  by_cases zero : address = 0
  · have one : (upperHex 0).length = 1 := by
      rw [upperHex_of_lt (by decide)]
      rfl
    rw [zero] at full
    omega
  · omega

theorem shows_gutterChar (byte : UInt8) : Shows (gutterChar byte) byte := by
  unfold Shows gutterChar
  by_cases printable : 0x20 ≤ byte.toNat ∧ byte.toNat < 0x7f
  · rw [if_pos printable, if_pos (by omega)]
    exact toNat_ofNat_byte byte
  · rw [if_neg printable, if_neg (by omega)]

theorem length_intercalate (each : ∀ text ∈ texts, text.length = 2) :
    (List.intercalate [' '] texts).length = 3 * texts.length - 1 := by
  induction texts with
  | nil => rfl
  | cons text texts ih =>
    rw [List.forall_mem_cons] at each
    cases texts with
    | nil =>
      rw [List.intercalate_singleton, each.1]
      rfl
    | cons next texts =>
      rw [List.intercalate_cons_cons, List.length_append, List.length_append, ih each.2, each.1,
        List.length_singleton]
      simp only [List.length_cons]
      omega

/-- A half of the columns is equally wide for any number of bytes in it. -/
theorem length_half (short : row.length ≤ 8) : (half row).length = 23 := by
  have each : ∀ text ∈ row.map fun byte => hexField 2 byte.toNat, text.length = 2 :=
    List.forall_mem_map.mpr fun byte _ => (isPair_hexField byte).1.1
  have length := length_intercalate each
  rw [List.length_map] at length
  simp only [half, List.length_append, List.length_replicate, length, halfWidth, halfColumns,
    columns]
  omega

theorem words_half (row : Bytes) :
    words (half row) = row.map fun byte => hexField 2 byte.toNat := by
  have blanks : ∀ d < 16, isBlank (Nat.digitChar d).toUpper = false := by decide
  refine words_intercalate ?_ ?_ _
  · exact List.forall_mem_map.mpr fun byte _ => hexField_ne_nil 2 byte.toNat
  · exact List.forall_mem_map.mpr fun byte _ =>
      forall_mem_hexField (p := (isBlank · = false)) blanks 2 byte.toNat

theorem pairs_map (row : Bytes) :
    List.Forall₂ IsPair (row.map fun byte => hexField 2 byte.toNat) row := by
  rw [List.forall₂_map_left_iff, List.forall₂_same]
  exact fun byte _ => isPair_hexField byte

theorem isColumns_halves (short : row.length ≤ 16) :
    IsColumns (half (row.take 8) ++ (' ' :: ' ' :: half (row.drop 8))) row := by
  have left : (half (row.take 8)).length = 23 := length_half (List.length_take_le 8 row)
  have right : (half (row.drop 8)).length = 23 := by
    apply length_half
    rw [List.length_drop]
    omega
  have front : (half (row.take 8) ++ [' ']).length = 24 := by
    rw [List.length_append, left]
    rfl
  have split : half (row.take 8) ++ (' ' :: ' ' :: half (row.drop 8)) =
      (half (row.take 8) ++ [' ']) ++ (' ' :: half (row.drop 8)) := by
    rw [List.append_assoc]
    rfl
  have leftWords : words (half (row.take 8) ++ [' ']) = words (half (row.take 8)) := by
    rw [words_append_blank (by decide)]
    exact List.append_nil _
  have rightWords : words (' ' :: half (row.drop 8)) = words (half (row.drop 8)) :=
    words_append_blank (by decide) [] _
  refine ⟨?_, ?_, ?_, ?_⟩
  · rw [split, List.length_append, front, List.length_cons, right]
  · rw [words_append_blank (by decide), rightWords, words_half, words_half, ← List.map_append,
      List.take_append_drop]
    exact pairs_map row
  · rw [split, List.take_left' front, leftWords, words_half]
    exact pairs_map (row.take 8)
  · rw [split, List.drop_left' front, rightWords, words_half]
    exact pairs_map (row.drop 8)

theorem isLine_line (address : Nat) (short : row.length ≤ 16) :
    IsLine address row (line address row) := by
  have gutter : List.Forall₂ Shows (row.map gutterChar) row := by
    rw [List.forall₂_map_left_iff, List.forall₂_same]
    exact fun byte _ => shows_gutterChar byte
  have layout : line address row = hexField 10 address ++ (':' :: ' ' ::
      ((half (row.take 8) ++ (' ' :: ' ' :: half (row.drop 8))) ++
        (' ' :: ' ' :: row.map gutterChar))) := by
    rw [line, signedField_natCast]
    simp only [List.append_assoc, List.cons_append, List.nil_append]
    rfl
  rw [layout]
  exact .intro (isAddress_hexField address) (isColumns_halves short) gutter

/-- The bytes of a line are found again, whatever address it has. -/
theorem rowOf_of_isLine (shown : IsLine address row text) : rowOf text = row := by
  cases shown with
  | @intro digits field gutter number columns _ =>
    have before : ∀ c ∈ digits, decide (c ≠ ':') = true := by
      have absent : ':' ∉ "0123456789ABCDEF".toList := by decide
      intro c member
      apply decide_eq_true
      rintro rfl
      exact absent (number.upper ':' member)
    have behind : (':' :: ' ' :: (field ++ (' ' :: ' ' :: gutter))).dropWhile (· ≠ ':') =
        ':' :: ' ' :: (field ++ (' ' :: ' ' :: gutter)) :=
      List.dropWhile_cons_of_neg (by decide)
    have values : List.Forall₂ (fun digits byte => UInt8.ofNat (positional 16 digits) = byte)
        (words field) row := by
      refine columns.pairs.imp fun digits byte pair => ?_
      rw [← (hexNumeral_iff.mp pair.1.2).2, UInt8.ofNat_toNat]
    rw [← List.forall₂_map_left_iff, List.forall₂_eq_eq_eq] at values
    rw [rowOf, List.dropWhile_append_of_pos before, behind, List.drop_succ_cons,
      List.drop_succ_cons, List.drop_zero, List.take_left' columns.width]
    exact values

theorem not_mem_intercalate (other : c ≠ ' ') (none : ∀ text ∈ texts, c ∉ text) :
    c ∉ List.intercalate [' '] texts := by
  induction texts with
  | nil => exact List.not_mem_nil
  | cons text texts ih =>
    rw [List.forall_mem_cons] at none
    cases texts with
    | nil =>
      rw [List.intercalate_singleton]
      exact none.1
    | cons next texts =>
      rw [List.intercalate_cons_cons, List.mem_append, List.mem_append, List.mem_singleton]
      rintro ((here | space) | later)
      · exact none.1 here
      · exact other space
      · exact ih none.2 later

theorem feed_not_mem_hexField (width n : Nat) : '\n' ∉ hexField width n := by
  have digits : ∀ d < 16, (Nat.digitChar d).toUpper ≠ '\n' := by decide
  intro feed
  exact forall_mem_hexField (p := (· ≠ '\n')) digits width n '\n' feed rfl

theorem feed_not_mem_half (row : Bytes) : '\n' ∉ half row := by
  have pairs : ∀ text ∈ row.map fun byte => hexField 2 byte.toNat, '\n' ∉ text :=
    List.forall_mem_map.mpr fun byte _ => feed_not_mem_hexField 2 byte.toNat
  rw [half, List.mem_append]
  rintro (text | space)
  · exact not_mem_intercalate (by decide) pairs text
  · cases (List.mem_replicate.mp space).2

theorem gutterChar_ne_feed (byte : UInt8) : gutterChar byte ≠ '\n' := by
  intro feed
  have shown := shows_gutterChar byte
  rw [feed] at shown
  unfold Shows at shown
  split at shown
  · rename_i printable
    have low : ('\n' : Char).toNat = 0x0a := rfl
    omega
  · cases shown

/-- No line is broken by a character in it. -/
theorem feed_not_mem_line (address : Nat) (row : Bytes) : '\n' ∉ line address row := by
  have gutter : '\n' ∉ row.map gutterChar := by
    intro member
    obtain ⟨byte, _, feed⟩ := List.mem_map.mp member
    exact gutterChar_ne_feed byte feed
  have mark : '\n' ∉ [':', ' '] := by decide
  have gap : '\n' ∉ [' ', ' '] := by decide
  rw [line, signedField_natCast]
  simp only [List.mem_append, feed_not_mem_hexField, feed_not_mem_half, gutter, mark, gap,
    or_self, not_false_eq_true]

theorem getElem?_rows (data : Bytes) (index : Nat) : (chunks columns data)[index]? =
    if 16 * index < data.length then some ((data.drop (16 * index)).take 16) else none :=
  getElem?_chunks (by decide) data index

theorem getElem?_linesOf (data : Bytes) (base index : Nat) :
    (linesOf data base)[index]? = if 16 * index < data.length then
      some (line (base + 16 * index : Nat) ((data.drop (16 * index)).take 16)) else none := by
  rw [linesOf, List.getElem?_mapIdx, getElem?_rows]
  split
  · rfl
  · rfl

theorem linesOf_ofData (data : Bytes) (base : Nat) :
    Text.linesOf (ofData data base) = linesOf data base := by
  refine linesOf_joinLines_eq fun text member => ?_
  obtain ⟨index, found⟩ := List.mem_iff_getElem?.mp member
  rw [getElem?_linesOf] at found
  split at found
  · cases found
    exact feed_not_mem_line _ _
  · cases found

theorem dataOf_ofData (data : Bytes) (base : Nat) : dataOf (ofData data base) = data := by
  have rows : (linesOf data base).map rowOf = chunks columns data := by
    apply List.ext_getElem?
    intro index
    rw [List.getElem?_map, getElem?_linesOf, getElem?_rows]
    by_cases inside : 16 * index < data.length
    · have shown := isLine_line (base + 16 * index)
        (List.length_take_le 16 (data.drop (16 * index)))
      rw [if_pos inside, if_pos inside, Option.map_some, rowOf_of_isLine shown]
    · rw [if_neg inside, if_neg inside]
      rfl
  rw [dataOf, linesOf_ofData, List.flatMap_def, rows, flatten_chunks (by decide)]

/-- A dump has a line for every sixteen bytes, and each line has the address, the pairs and the
characters of its own bytes. They are read back from it, so no other bytes have the same dump. -/
theorem write_readable (cells : Bytes) (base : Nat) :
    let text := write cells base
    let data := cells.evens
    let lines := Text.linesOf text
    text = joinLines lines ∧ lines.length = (data.length + 15) / 16 ∧
      (∀ index line, lines[index]? = some line →
        IsLine (base + 16 * index) ((data.drop (16 * index)).take 16) line) ∧
      dataOf text = data ∧ ∀ other : Bytes, write other base = text ↔ other.evens = data := by
  intro text data lines
  have same : lines = linesOf data base := linesOf_ofData data base
  rw [same]
  refine ⟨rfl, ?_, fun index line found => ?_, dataOf_ofData data base, fun other => ?_⟩
  · rw [linesOf, List.length_mapIdx, length_chunks (by decide)]
    rfl
  · rw [getElem?_linesOf] at found
    split at found
    · cases found
      exact isLine_line _ (List.length_take_le 16 _)
    · cases found
  · constructor
    · intro equal
      have back : dataOf (write other base) = dataOf (ofData data base) := congrArg dataOf equal
      rwa [write, dataOf_ofData, dataOf_ofData] at back
    · intro equal
      rw [write, equal]
      rfl

end MemoryBoard.HexDump
