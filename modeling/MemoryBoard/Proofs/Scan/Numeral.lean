import MemoryBoard.Proofs.Text.Ascii
import MemoryBoard.Proofs.Text.Blank
import MemoryBoard.Proofs.Text.HexField

set_option autoImplicit false

namespace MemoryBoard.Scan

open Text

/-- A numeral with its base and the digits that count in it. -/
inductive Numeral : List Char → Nat → List Char → Prop where
  | hex {x : Char} {digits : List Char} : x = 'x' ∨ x = 'X' → digits ≠ [] →
      (∀ c ∈ digits, isHexDigit c = true) → Numeral ('0' :: x :: digits) 16 digits
  | octal {digits : List Char} : digits ≠ [] → (∀ c ∈ digits, '0' ≤ c ∧ c ≤ '7') →
      Numeral ('0' :: digits) 8 digits
  | zero : Numeral ['0'] 10 ['0']
  | decimal {first : Char} {rest : List Char} : '1' ≤ first ∧ first ≤ '9' →
      (∀ c ∈ rest, '0' ≤ c ∧ c ≤ '9') → Numeral (first :: rest) 10 (first :: rest)

/-- Whether a text, apart from white space around it, is the numeral of a number up to a bound. -/
def Denotes (maximum : Nat) (text : CodeText) (value : Nat) : Prop :=
  ∃ plain base digits, text = CodeText.ofString plain ∧
    Numeral (strip plain.toList) base digits ∧ value = positional base digits ∧ value ≤ maximum

/-- What holds of the hex digits in ASCII holds of every hex digit. -/
theorem hexDigit_all (p : Char → Prop)
    (each : ∀ code < 0x80, isHexDigit (Char.ofNat code) = true → p (Char.ofNat code)) {c : Char}
    (digit : isHexDigit c = true) : p c :=
  forall_ascii (p := fun c => isHexDigit c = true → p c) each (isPlainAscii_of_isHexDigit digit).1
    digit

theorem isDigitIn_hex {c : Char} : isDigitIn 16 c = true ↔ isHexDigit c = true := by
  have small : ∀ code < 0x80, isHexDigit (Char.ofNat code) = true →
      digitValue (Char.ofNat code) < 16 := by decide
  simp only [isDigitIn, Bool.and_eq_true, decide_eq_true_eq]
  constructor
  · intro both
    exact both.1
  · intro digit
    exact ⟨digit, hexDigit_all (digitValue · < 16) small digit⟩

theorem isHexDigit_of_le_nine {c : Char} (low : '0' ≤ c) (high : c ≤ '9') :
    isHexDigit c = true := by
  simp only [isHexDigit, low, high, decide_true, Bool.and_self, Bool.true_or]

/-- In a base up to ten the digits lie one behind another. -/
theorem isDigitIn_iff_le {base : Nat} {last : Char} (bound : last ≤ '9')
    (small : ∀ code < 0x80, isHexDigit (Char.ofNat code) = true →
      (digitValue (Char.ofNat code) < base ↔ '0' ≤ Char.ofNat code ∧ Char.ofNat code ≤ last))
    {c : Char} : isDigitIn base c = true ↔ '0' ≤ c ∧ c ≤ last := by
  have same := @hexDigit_all (fun c => digitValue c < base ↔ '0' ≤ c ∧ c ≤ last) small c
  simp only [isDigitIn, Bool.and_eq_true, decide_eq_true_eq]
  constructor
  · intro both
    exact (same both.1).mp both.2
  · intro between
    have digit := isHexDigit_of_le_nine between.1 (Char.le_trans between.2 bound)
    exact ⟨digit, (same digit).mpr between⟩

theorem isDigitIn_octal {c : Char} : isDigitIn 8 c = true ↔ '0' ≤ c ∧ c ≤ '7' :=
  isDigitIn_iff_le (by decide) (by decide)

theorem isDigitIn_decimal {c : Char} : isDigitIn 10 c = true ↔ '0' ≤ c ∧ c ≤ '9' :=
  isDigitIn_iff_le (by decide) (by decide)

theorem radix_octal {digit : Char} {rest : List Char} (high : digit ≤ '7') :
    radix ('0' :: digit :: rest) = (8, digit :: rest) := by
  have lower : digit ≠ 'x' := by
    intro same
    rw [same] at high
    exact absurd high (by decide)
  have upper : digit ≠ 'X' := by
    intro same
    rw [same] at high
    exact absurd high (by decide)
  rw [radix]
  · intro same
    exact lower same
  · intro same
    exact upper same

theorem radix_decimal {first : Char} {rest : List Char} (low : '1' ≤ first) :
    radix (first :: rest) = (10, first :: rest) := by
  have other : first ≠ '0' := by
    intro same
    rw [same] at low
    exact absurd low (by decide)
  unfold radix
  split
  · rename_i same
    exact absurd (List.cons.inj same).1 other
  · rename_i same
    exact absurd (List.cons.inj same).1 other
  · rename_i same
    exact absurd (List.cons.inj same).1 other
  · rfl

theorem one_le_of_ne_zero {c : Char} (low : '0' ≤ c) (other : c ≠ '0') : '1' ≤ c := by
  have bound : '0'.toNat ≤ c.toNat := low
  have apart : c.toNat ≠ '0'.toNat := by
    intro same
    exact other (Char.toNat_inj.mp same)
  have above : '0'.toNat + 1 ≤ c.toNat := by omega
  exact above

/-- A numeral is what the reader splits into a base and some digits of that base. -/
theorem numeral_iff {text digits : List Char} {base : Nat} :
    Numeral text base digits ↔
      radix text = (base, digits) ∧ digits ≠ [] ∧ ∀ c ∈ digits, isDigitIn base c = true := by
  constructor
  · intro numeral
    cases numeral with
    | hex mark some digit =>
      refine ⟨?_, some, fun c member => isDigitIn_hex.mpr (digit c member)⟩
      rcases mark with rfl | rfl
      · rfl
      · rfl
    | octal some digit =>
      refine ⟨?_, some, fun c member => isDigitIn_octal.mpr (digit c member)⟩
      cases digits with
      | nil => exact absurd rfl some
      | cons first rest =>
        have bounds := digit first List.mem_cons_self
        exact radix_octal bounds.2
    | zero =>
      refine ⟨rfl, List.cons_ne_nil _ _, fun c member => ?_⟩
      rw [List.mem_singleton.mp member]
      rfl
    | decimal first rest =>
      refine ⟨radix_decimal first.1, List.cons_ne_nil _ _, fun c member => ?_⟩
      rcases List.mem_cons.mp member with same | later
      · rw [same]
        exact isDigitIn_decimal.mpr ⟨Char.le_trans (by decide) first.1, first.2⟩
      · exact isDigitIn_decimal.mpr (rest c later)
  · intro ⟨split, nonempty, digit⟩
    fun_cases radix text with
    | case1 rest =>
      cases split
      exact .hex (Or.inl rfl) nonempty fun c member => isDigitIn_hex.mp (digit c member)
    | case2 rest =>
      cases split
      exact .hex (Or.inr rfl) nonempty fun c member => isDigitIn_hex.mp (digit c member)
    | case3 first rest lower upper =>
      have whole : radix ('0' :: first :: rest) = (8, first :: rest) := by
        rw [radix]
        · exact lower
        · exact upper
      rw [whole] at split
      cases split
      exact .octal nonempty fun c member => isDigitIn_octal.mp (digit c member)
    | case4 _ notLower notUpper notOctal =>
      have whole : radix text = (10, text) := by
        rw [radix]
        · exact notLower
        · exact notUpper
        · exact notOctal
      rw [whole] at split
      cases split
      cases text with
      | nil => exact absurd rfl nonempty
      | cons first rest =>
        have bounds := isDigitIn_decimal.mp (digit first List.mem_cons_self)
        by_cases zero : first = '0'
        · subst zero
          cases rest with
          | nil => exact .zero
          | cons second rest => exact (notOctal second rest rfl).elim
        · refine .decimal ⟨one_le_of_ne_zero bounds.1 zero, bounds.2⟩ fun c member => ?_
          exact isDigitIn_decimal.mp (digit c (List.mem_cons_of_mem first member))

theorem Numeral.allHex {text digits : List Char} {base : Nat}
    (numeral : Numeral text base digits) : ∀ c ∈ digits, isHexDigit c = true := by
  intro c member
  have digit := (numeral_iff.mp numeral).2.2 c member
  rw [isDigitIn, Bool.and_eq_true] at digit
  exact digit.1

/-- There is no white space in a numeral. -/
theorem Numeral.plain {text digits : List Char} {base : Nat} (numeral : Numeral text base digits) :
    ∀ c ∈ text, isBlank c = false := by
  have blanks : ∀ code < 0x80, isHexDigit (Char.ofNat code) = true →
      isBlank (Char.ofNat code) = false := by decide
  have digit : ∀ c ∈ digits, isBlank c = false := fun c member =>
    hexDigit_all (isBlank · = false) blanks (numeral.allHex c member)
  cases numeral with
  | hex mark =>
    have plain : ∀ x, x = 'x' ∨ x = 'X' → isBlank x = false := by
      rintro x (rfl | rfl)
      · rfl
      · rfl
    exact List.forall_mem_cons.mpr ⟨rfl, List.forall_mem_cons.mpr ⟨plain _ mark, digit⟩⟩
  | octal => exact List.forall_mem_cons.mpr ⟨rfl, digit⟩
  | zero => exact digit
  | decimal => exact digit

/-- The reader takes the numerals and gives them their value. -/
theorem numeral?_eq_some {text : List Char} {value : Nat} :
    numeral? text = some value ↔
      ∃ base digits, Numeral text base digits ∧ value = positional base digits := by
  simp only [numeral_iff, ← List.all_eq_true]
  unfold numeral?
  rcases radix text with ⟨base, digits⟩
  simp only [Prod.mk.injEq]
  split
  · rename_i valid
    constructor
    · intro same
      cases same
      exact ⟨base, digits, ⟨⟨rfl, rfl⟩, valid⟩, rfl⟩
    · intro ⟨_, _, ⟨⟨sameBase, sameDigits⟩, _⟩, same⟩
      rw [same, sameBase, sameDigits]
  · rename_i invalid
    constructor
    · intro impossible
      cases impossible
    · intro ⟨_, _, ⟨⟨sameBase, sameDigits⟩, valid⟩, _⟩
      rw [← sameBase, ← sameDigits] at valid
      exact absurd valid invalid

theorem Numeral.isOverlong_iff {text digits : List Char} {base : Nat}
    (numeral : Numeral text base digits) :
    isOverlong text = true ↔ base = 10 ∧ decimalLimit < digits.length := by
  rw [isOverlong, (numeral_iff.mp numeral).1, Bool.and_eq_true, beq_iff_eq, decide_eq_true_eq]

/-- A decimal numeral begins with a digit other than zero, so one of many digits is a big number. -/
theorem Numeral.pow_le {text digits : List Char} (numeral : Numeral text 10 digits)
    (long : decimalLimit < digits.length) : 10 ^ decimalLimit ≤ positional 10 digits := by
  cases numeral with
  | zero => exact absurd long (by decide)
  | @decimal first rest between _ =>
    have each : ∀ code < 0x80, '1' ≤ Char.ofNat code ∧ Char.ofNat code ≤ '9' →
        0 < digitValue (Char.ofNat code) := by decide
    have some : 0 < digitValue first :=
      forall_ascii (p := fun c => '1' ≤ c ∧ c ≤ '9' → 0 < digitValue c) each
        (Nat.lt_of_le_of_lt between.2 (by decide)) between
    refine Nat.le_trans (Nat.pow_le_pow_right (by decide) ?_) (pow_le_positional 10 some rest)
    exact Nat.le_of_lt_succ long

theorem unsigned_of_numeral {text : String} {base : Nat} {digits : List Char} (maximum : Int)
    (numeral : Numeral (strip text.toList) base digits) :
    unsigned maximum text =
      if base = 10 ∧ decimalLimit < digits.length then .error (.defect .tooManyDigits)
      else if positional base digits ≤ maximum then .ok (positional base digits)
      else .error (.numberTooBig maximum text) := by
  rw [unsigned, numeral?_eq_some.mpr ⟨base, digits, numeral, rfl⟩]
  simp only [numeral.isOverlong_iff]

theorem unsigned_of_none {text : String} (maximum : Int)
    (none : numeral? (strip text.toList) = none) :
    unsigned maximum text = .error (.notNumber (.text text)) := by
  rw [unsigned, none]

/-- A number with too many digits is far above any word. -/
theorem lt_pow_decimalLimit {n : Nat} (small : n < 2 ^ 32) : n < 10 ^ decimalLimit :=
  calc n < 2 ^ 32 := small
    _ ≤ 10 ^ 10 := by decide
    _ ≤ 10 ^ decimalLimit := Nat.pow_le_pow_right (by decide) (by decide)

/-- A number is read if the text is a numeral, apart from white space around it, and not too big. -/
theorem unsigned_eq_ok {maximum : Nat} (small : maximum < 2 ^ 32) {text : String} {value : Nat} :
    unsigned maximum text = .ok value ↔ Denotes maximum text value := by
  constructor
  · intro read
    cases found : numeral? (strip text.toList) with
    | none =>
      rw [unsigned_of_none maximum found] at read
      cases read
    | some number =>
      obtain ⟨base, digits, numeral, -⟩ := numeral?_eq_some.mp found
      rw [unsigned_of_numeral maximum numeral] at read
      split at read
      · cases read
      split at read
      · rename_i bound
        cases read
        exact ⟨text, base, digits, rfl, numeral, rfl, Int.ofNat_le.mp bound⟩
      · cases read
  · rintro ⟨plain, base, digits, same, numeral, rfl, bound⟩
    rw [← CodeText.ofString_inj.mp same] at numeral
    rw [unsigned_of_numeral maximum numeral, if_neg, if_pos (Int.ofNat_le.mpr bound)]
    rintro ⟨rfl, long⟩
    have above := numeral.pow_le long
    have below := lt_pow_decimalLimit small
    omega

theorem Denotes.exists_plain {maximum : Nat} {text : CodeText} {value : Nat}
    (denotes : Denotes maximum text value) : ∃ plain : String, text = plain := by
  obtain ⟨plain, _, _, same, _⟩ := denotes
  exact ⟨plain, same⟩

/-- A number written in hex, with any zeros in front, denotes itself. -/
theorem denotes_hexField {maximum n : Nat} (width : Nat) (small : n ≤ maximum) :
    Denotes maximum (String.ofList ('0' :: 'x' :: hexField width n)) n := by
  have numeral : Numeral ('0' :: 'x' :: hexField width n) 16 (hexField width n) :=
    .hex (Or.inl rfl) (hexField_ne_nil width n) fun _ member => isHexDigit_of_mem_hexField member
  refine ⟨_, 16, hexField width n, rfl, ?_, (positional_hexField width n).symm, small⟩
  rwa [String.toList_ofList, strip_of_none numeral.plain]

end MemoryBoard.Scan
