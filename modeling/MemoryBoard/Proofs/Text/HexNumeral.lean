import MemoryBoard.Proofs.Scan.Numeral
import MemoryBoard.Proofs.Text.HexField

set_option autoImplicit false

namespace MemoryBoard.Text

/-- Whether a character is the digit of a value below sixteen. -/
def IsHexDigitFor (value : Nat) (c : Char) : Prop :=
  "0123456789ABCDEF".toList[value]? = some c ∨ "0123456789abcdef".toList[value]? = some c

instance (value : Nat) (c : Char) : Decidable (IsHexDigitFor value c) :=
  inferInstanceAs (Decidable (_ ∨ _))

/-- Digits one behind another, and their number. -/
inductive HexNumeral : List Char → Nat → Prop where
  | nil : HexNumeral [] 0
  | concat {digits : List Char} {number value : Nat} {c : Char} :
      HexNumeral digits number → IsHexDigitFor value c →
      HexNumeral (digits ++ [c]) (16 * number + value)

/-- A number in a fixed count of digits. -/
def IsHexField (width : Nat) (text : List Char) (number : Nat) : Prop :=
  text.length = width ∧ HexNumeral text number

/-- Whether two characters are digits of one value. -/
def SameDigit (old new : Char) : Prop :=
  ∃ value, IsHexDigitFor value old ∧ IsHexDigitFor value new

theorem isHexDigitFor_iff {value : Nat} {c : Char} :
    IsHexDigitFor value c ↔ isHexDigit c = true ∧ value = digitValue c := by
  constructor
  · have upper : ∀ index : Fin 16, isHexDigit "0123456789ABCDEF".toList[index] = true ∧
        index.val = digitValue "0123456789ABCDEF".toList[index] := by decide
    have lower : ∀ index : Fin 16, isHexDigit "0123456789abcdef".toList[index] = true ∧
        index.val = digitValue "0123456789abcdef".toList[index] := by decide
    intro digit
    rcases digit with found | found
    · obtain ⟨inside, rfl⟩ := List.getElem?_eq_some_iff.mp found
      exact upper ⟨value, inside⟩
    · obtain ⟨inside, rfl⟩ := List.getElem?_eq_some_iff.mp found
      exact lower ⟨value, inside⟩
  · have small : ∀ code < 0x80, isHexDigit (Char.ofNat code) = true →
        IsHexDigitFor (digitValue (Char.ofNat code)) (Char.ofNat code) := by decide
    intro ⟨digit, same⟩
    rw [same]
    exact Scan.hexDigit_all (fun c => IsHexDigitFor (digitValue c) c) small digit

theorem IsHexDigitFor.lt {value : Nat} {c : Char} (digit : IsHexDigitFor value c) :
    value < 16 := by
  rcases digit with found | found
  · exact (List.getElem?_eq_some_iff.mp found).1
  · exact (List.getElem?_eq_some_iff.mp found).1

theorem HexNumeral.lt {digits : List Char} {number : Nat} (numeral : HexNumeral digits number) :
    number < fieldLimit digits.length := by
  induction numeral with
  | nil => exact Nat.one_pos
  | concat _ digit ih =>
    have small := digit.lt
    rw [List.length_append, List.length_singleton, fieldLimit]
    omega

theorem IsHexField.lt {width number : Nat} {text : List Char}
    (field : IsHexField width text number) : number < fieldLimit width := by
  rw [← field.1]
  exact field.2.lt

/-- Only zeros are worth nothing. -/
theorem HexNumeral.eq_zeros {digits : List Char} (numeral : HexNumeral digits 0) :
    digits = List.replicate digits.length '0' := by
  generalize zero : 0 = number at numeral
  induction numeral with
  | nil => rfl
  | @concat digits number value c _ digit ih =>
    have none : value = 0 := by omega
    have before := ih (by omega)
    rw [none] at digit
    have last : c = '0' := by
      rcases digit with found | found
      · exact (Option.some.inj found).symm
      · exact (Option.some.inj found).symm
    rw [List.length_append, List.length_singleton, List.replicate_succ', ← before, last]

theorem hexNumeral_iff {digits : List Char} {number : Nat} :
    HexNumeral digits number ↔
      (∀ c ∈ digits, isHexDigit c = true) ∧ number = positional 16 digits := by
  constructor
  · intro numeral
    induction numeral with
    | nil =>
      refine ⟨?_, rfl⟩
      intro c member
      cases member
    | concat _ digit ih =>
      obtain ⟨valid, same⟩ := isHexDigitFor_iff.mp digit
      refine ⟨?_, ?_⟩
      · intro c member
        rcases List.mem_append.mp member with before | last
        · exact ih.1 c before
        · rwa [List.mem_singleton.mp last]
      · rw [positional_append, ← ih.2, ← same, Nat.mul_comm]
  · intro ⟨valid, same⟩
    subst same
    -- The numeral grows at its end, so the induction takes the last digit off.
    induction reversed : digits.reverse generalizing digits with
    | nil =>
      rw [List.reverse_eq_nil_iff.mp reversed]
      exact .nil
    | cons c rest ih =>
      have split : digits = rest.reverse ++ [c] := by
        rw [← List.reverse_cons, ← reversed, List.reverse_reverse]
      subst split
      have before : ∀ other ∈ rest.reverse, isHexDigit other = true := fun other member =>
        valid other (List.mem_append_left [c] member)
      have last : isHexDigit c = true :=
        valid c (List.mem_append_right rest.reverse (List.mem_singleton.mpr rfl))
      rw [positional_append, Nat.mul_comm]
      exact .concat (ih before (List.reverse_reverse rest)) (isHexDigitFor_iff.mpr ⟨last, rfl⟩)

theorem IsHexDigitFor.unique {value other : Nat} {c : Char} (digit : IsHexDigitFor value c)
    (again : IsHexDigitFor other c) : value = other :=
  (isHexDigitFor_iff.mp digit).2.trans (isHexDigitFor_iff.mp again).2.symm

theorem HexNumeral.unique {number other : Nat} {digits : List Char}
    (numeral : HexNumeral digits number) (again : HexNumeral digits other) : number = other :=
  (hexNumeral_iff.mp numeral).2.trans (hexNumeral_iff.mp again).2.symm

theorem hexNumeral_concat {digits : List Char} {c : Char} {number : Nat} :
    HexNumeral (digits ++ [c]) number ↔
      ∃ high low, HexNumeral digits high ∧ IsHexDigitFor low c ∧ number = 16 * high + low := by
  constructor
  · intro numeral
    generalize whole : digits ++ [c] = text at numeral
    cases numeral with
    | nil => exact absurd whole (by simp)
    | @concat _ high low _ numeral digit =>
      obtain ⟨rfl, same⟩ := List.append_inj' whole rfl
      cases same
      exact ⟨high, low, numeral, digit, rfl⟩
  · intro ⟨high, low, numeral, digit, same⟩
    rw [same]
    exact .concat numeral digit

/-- A digit of another value makes another number. -/
theorem HexNumeral.ne_of_set {digits : List Char} {number other position : Nat} {old new : Char}
    (numeral : HexNumeral digits number) (present : digits[position]? = some old)
    (different : ¬ SameDigit old new) (changed : HexNumeral (digits.set position new) other) :
    other ≠ number := by
  induction numeral generalizing position other with
  | nil => cases present
  | @concat digits number value c numeral digit ih =>
    have small := digit.lt
    by_cases inside : position < digits.length
    · rw [List.getElem?_append_left inside] at present
      rw [List.set_append_left _ _ inside] at changed
      obtain ⟨high, low, front, last, rfl⟩ := hexNumeral_concat.mp changed
      have same := last.unique digit
      have higher := ih present front
      omega
    · have bound := (List.getElem?_eq_some_iff.mp present).1
      have final : position = digits.length := by
        rw [List.length_append, List.length_singleton] at bound
        omega
      subst final
      rw [List.getElem?_concat_length, Option.some.injEq] at present
      rw [List.set_append_right _ _ (Nat.le_refl _), Nat.sub_self, List.set_cons_zero] at changed
      obtain ⟨high, low, front, last, rfl⟩ := hexNumeral_concat.mp changed
      have same := front.unique numeral
      have lower : low ≠ value := by
        intro same
        rw [same] at last
        rw [present] at digit
        exact different ⟨value, digit, last⟩
      have room := last.lt
      omega

/-- A byte is a field of two digits. -/
theorem isHexField_two {text : List Char} {number : Nat} : IsHexField 2 text number ↔
    ∃ high low first second, text = [first, second] ∧ IsHexDigitFor high first ∧
      IsHexDigitFor low second ∧ number = 16 * high + low := by
  constructor
  · intro ⟨length, numeral⟩
    match text, length, numeral with
    | [first, second], _, numeral =>
      obtain ⟨front, low, digits, lower, rfl⟩ := hexNumeral_concat.mp
        (show HexNumeral ([first] ++ [second]) number from numeral)
      obtain ⟨none, high, empty, upper, rfl⟩ := hexNumeral_concat.mp
        (show HexNumeral ([] ++ [first]) front from digits)
      have zero : none = 0 := empty.unique .nil
      exact ⟨high, low, first, second, rfl, upper, lower, by omega⟩
  · intro ⟨high, low, first, second, same, upper, lower, value⟩
    have numeral : HexNumeral [first, second] (16 * (16 * 0 + high) + low) :=
      .concat (.concat .nil upper) lower
    rw [Nat.mul_zero, Nat.zero_add] at numeral
    rw [same, value]
    exact ⟨rfl, numeral⟩

/-- A byte in two digits may stand behind a field. -/
theorem IsHexField.append {width number low : Nat} {front pair : List Char}
    (field : IsHexField width front number) (byte : IsHexField 2 pair low) :
    IsHexField (width + 2) (front ++ pair) (256 * number + low) := by
  obtain ⟨high, lower, first, second, rfl, upper, last, rfl⟩ := isHexField_two.mp byte
  have numeral : HexNumeral (front ++ [first] ++ [second])
      (16 * (16 * number + high) + lower) := .concat (.concat field.2 upper) last
  rw [List.append_assoc, show 16 * (16 * number + high) + lower =
    256 * number + (16 * high + lower) by omega] at numeral
  exact ⟨by rw [List.length_append, field.1]; rfl, numeral⟩

/-- The last two digits of a field are its low byte. -/
theorem IsHexField.split {width number : Nat} {text : List Char}
    (field : IsHexField (width + 2) text number) :
    ∃ front pair, text = front ++ pair ∧ IsHexField width front (number / 256) ∧
      IsHexField 2 pair (number % 256) := by
  obtain ⟨length, numeral⟩ := field
  cases numeral with
  | nil => cases length
  | @concat _ _ lower last numeral second =>
    cases numeral with
    | nil => exact absurd length (by simp)
    | @concat front higher upper c numeral first =>
      have small := second.lt
      have large := first.lt
      have high : (16 * (16 * higher + upper) + lower) / 256 = higher := by omega
      have low : (16 * (16 * higher + upper) + lower) % 256 = 16 * upper + lower := by omega
      have pair : HexNumeral [c, last] (16 * (16 * 0 + upper) + lower) :=
        .concat (.concat .nil first) second
      rw [Nat.mul_zero, Nat.zero_add] at pair
      rw [high, low]
      exact ⟨front, [c, last], by simp, ⟨by simpa using length, numeral⟩, rfl, pair⟩

theorem hexNumeral_hexField (width n : Nat) : HexNumeral (hexField width n) n :=
  hexNumeral_iff.mpr
    ⟨fun _ member => isHexDigit_of_mem_hexField member, (positional_hexField width n).symm⟩

/-- A number is written as the field that has its value. -/
theorem isHexField_hexField {width n : Nat} (positive : 0 < width) (room : n < fieldLimit width) :
    IsHexField width (hexField width n) n :=
  ⟨length_hexField width positive room, hexNumeral_hexField width n⟩

/-- A scan for digits needs all of them at the beginning of the text. -/
theorem hexDigits_eq_ok {width number : Nat} {text : List Char} :
    Scan.hexDigits width text = .ok number ↔
      ∃ field rest, text = field ++ rest ∧ IsHexField width field number := by
  unfold Scan.hexDigits
  simp only
  constructor
  · intro scanned
    split at scanned
    · cases scanned
    rename_i long
    split at scanned
    · cases scanned
    rename_i valid
    cases scanned
    refine ⟨text.take width, text.drop width, (List.take_append_drop width text).symm, ?_, ?_⟩
    · have short : (text.take width).length ≤ width := List.length_take_le width text
      omega
    · refine hexNumeral_iff.mpr ⟨?_, rfl⟩
      intro c member
      simpa using List.find?_eq_none.mp valid c member
  · intro ⟨field, rest, split, length, numeral⟩
    obtain ⟨valid, same⟩ := hexNumeral_iff.mp numeral
    have taken : text.take width = field := by
      rw [split, ← length, List.take_left']
      rfl
    have plain : field.find? (!isHexDigit ·) = none := by
      rw [List.find?_eq_none]
      intro c member
      simp [valid c member]
    simp only [taken, length, Nat.lt_irrefl, ↓reduceIte, plain, same]

end MemoryBoard.Text
