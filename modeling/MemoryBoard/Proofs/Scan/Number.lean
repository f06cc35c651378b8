import Mathlib.Data.List.Forall2
import Mathlib.Data.List.TakeDrop
import Mathlib.Data.Nat.Digits.Defs
import MemoryBoard.Proofs.Except
import MemoryBoard.Proofs.Scan.Choice
import MemoryBoard.Proofs.Scan.Numeral
import MemoryBoard.Proofs.Text.HexNumeral

set_option autoImplicit false

/- Numbers and ranges of addresses in text, apart from how they are read. A text shows a number if
it is a numeral with white space around it, each digit counting by its place; a range is two numbers
with the first hyphen between them. The scans take just these texts, so a number can be written in
any of the three bases. -/
namespace MemoryBoard.Scan

open Text

/-- Whether some characters are the digits of a number in a base, the most significant first. -/
def PlaceValue (base : Nat) (digits : List Char) (value : Nat) : Prop :=
  ∃ values, List.Forall₂ IsHexDigitFor values digits ∧ value = Nat.ofDigits base values.reverse

/-- Whether a text is a numeral of some number, with nothing but white space around it. -/
def Shows (text : List Char) (value : Nat) : Prop :=
  ∃ before numeral after base digits, text = before ++ numeral ++ after ∧
    (∀ c ∈ before, isBlank c = true) ∧ (∀ c ∈ after, isBlank c = true) ∧
    Numeral numeral base digits ∧ PlaceValue base digits value

/-- Whether a text is a decimal numeral of more digits than can be converted, with nothing but white
space around it. -/
def Overlong (text : List Char) : Prop :=
  ∃ before numeral after digits, text = before ++ numeral ++ after ∧
    (∀ c ∈ before, isBlank c = true) ∧ (∀ c ∈ after, isBlank c = true) ∧
    Numeral numeral 10 digits ∧ decimalLimit < digits.length

/-- Whether a text is one that no number can be made of, though it is a numeral. -/
def HasTooManyDigits (text : CodeText) : Prop :=
  ∃ plain : String, text = plain ∧ Overlong plain.toList

/-- The ways to write a number: in decimal, in hex with digits of either case and in octal, the last
two with any zeros in front. -/
inductive Writes (n : Nat) : List Char → Prop where
  | decimal : Writes n (Nat.toDigits 10 n)
  | hex {mark : Char} {digits : List Char} (zeros : Nat) : mark = 'x' ∨ mark = 'X' →
      digits.map Char.toLower = Nat.toDigits 16 n →
      Writes n ('0' :: mark :: (List.replicate zeros '0' ++ digits))
  | octal (zeros : Nat) : Writes n ('0' :: (List.replicate zeros '0' ++ Nat.toDigits 8 n))

variable {base value n : Nat} {digits text : List Char}

theorem forall₂_isHexDigitFor_iff {values : List Nat} :
    List.Forall₂ IsHexDigitFor values digits ↔
      (∀ c ∈ digits, isHexDigit c = true) ∧ values = digits.map digitValue := by
  induction digits generalizing values with
  | nil => simp
  | cons c rest ih =>
    simp only [List.forall₂_cons_right_iff, isHexDigitFor_iff, ih, List.forall_mem_cons,
      List.map_cons]
    constructor
    · rintro ⟨_, _, ⟨digit, rfl⟩, ⟨later, rfl⟩, rfl⟩
      exact ⟨⟨digit, later⟩, rfl⟩
    · rintro ⟨⟨digit, later⟩, rfl⟩
      exact ⟨_, _, ⟨digit, rfl⟩, ⟨later, rfl⟩, rfl⟩

/-- Going on from the most significant digit comes to the same sum. -/
theorem positional_eq_ofDigits (base : Nat) (digits : List Char) :
    positional base digits = Nat.ofDigits base (digits.map digitValue).reverse := by
  rw [Nat.ofDigits_eq_foldr, List.foldr_reverse, List.foldl_map, positional]
  simp only [Nat.cast_id, Nat.mul_comm base, Nat.add_comm]

theorem placeValue_iff : PlaceValue base digits value ↔
    (∀ c ∈ digits, isHexDigit c = true) ∧ value = positional base digits := by
  simp only [PlaceValue, forall₂_isHexDigitFor_iff, positional_eq_ofDigits]
  constructor
  · rintro ⟨_, ⟨all, rfl⟩, same⟩
    exact ⟨all, same⟩
  · rintro ⟨all, same⟩
    exact ⟨_, ⟨all, rfl⟩, same⟩

/-- What is left without the white space is the numeral, since no numeral has any. -/
theorem exists_numeral_iff (p : List Char → Prop) :
    (∃ before numeral after, text = before ++ numeral ++ after ∧
      (∀ c ∈ before, isBlank c = true) ∧ (∀ c ∈ after, isBlank c = true) ∧
      Numeral numeral base digits ∧ p digits) ↔ Numeral (strip text) base digits ∧ p digits := by
  constructor
  · rintro ⟨before, numeral, after, rfl, front, back, here, holds⟩
    rw [strip_append numeral front back, strip_of_none here.plain]
    exact ⟨here, holds⟩
  · rintro ⟨here, holds⟩
    obtain ⟨before, after, split, front, back⟩ := exists_eq_append_strip text
    exact ⟨before, strip text, after, split, front, back, here, holds⟩

theorem shows_iff_numeral : Shows text value ↔
    ∃ base digits, Numeral (strip text) base digits ∧ value = positional base digits := by
  constructor
  · rintro ⟨before, numeral, after, base, digits, whole⟩
    obtain ⟨here, worth⟩ := (exists_numeral_iff (PlaceValue base · value)).mp
      ⟨before, numeral, after, whole⟩
    exact ⟨base, digits, here, (placeValue_iff.mp worth).2⟩
  · rintro ⟨base, digits, here, same⟩
    obtain ⟨before, numeral, after, whole⟩ := (exists_numeral_iff (PlaceValue base · value)).mpr
      ⟨here, placeValue_iff.mpr ⟨here.allHex, same⟩⟩
    exact ⟨before, numeral, after, base, digits, whole⟩

theorem shows_iff : Shows text value ↔ numeral? (strip text) = some value := by
  rw [numeral?_eq_some, shows_iff_numeral]

theorem overlong_iff : Overlong text ↔
    ∃ digits, Numeral (strip text) 10 digits ∧ decimalLimit < digits.length := by
  constructor
  · rintro ⟨before, numeral, after, digits, whole⟩
    exact ⟨digits, (exists_numeral_iff (decimalLimit < ·.length)).mp
      ⟨before, numeral, after, whole⟩⟩
  · rintro ⟨digits, stripped⟩
    obtain ⟨before, numeral, after, whole⟩ :=
      (exists_numeral_iff (decimalLimit < ·.length)).mpr stripped
    exact ⟨before, numeral, after, digits, whole⟩

/-- A text has one reading as a numeral, so whether it is too long is seen from that. -/
theorem overlong_iff_of_numeral (here : Numeral (strip text) base digits) :
    Overlong text ↔ base = 10 ∧ decimalLimit < digits.length := by
  rw [overlong_iff]
  constructor
  · rintro ⟨others, decimal, long⟩
    have same := (numeral_iff.mp here).1.symm.trans (numeral_iff.mp decimal).1
    cases same
    exact ⟨rfl, long⟩
  · rintro ⟨rfl, long⟩
    exact ⟨digits, here, long⟩

theorem Numeral.shows (numeral : Numeral text base digits) (same : positional base digits = value) :
    Shows text value :=
  ⟨[], text, [], base, digits, (List.append_nil text).symm, List.forall_mem_nil _,
    List.forall_mem_nil _, numeral, placeValue_iff.mpr ⟨numeral.allHex, same.symm⟩⟩

theorem Shows.strip_ne_nil (shown : Shows text value) : strip text ≠ [] := by
  intro empty
  rw [shows_iff, empty] at shown
  cases shown

theorem Overlong.shows (long : Overlong text) : ∃ value, Shows text value := by
  obtain ⟨digits, here, _⟩ := overlong_iff.mp long
  exact ⟨positional 10 digits, shows_iff_numeral.mpr ⟨10, digits, here, rfl⟩⟩

theorem Shows.unique {other : Nat} (one : Shows text value) (two : Shows text other) :
    value = other :=
  Option.some.inj ((shows_iff.mp one).symm.trans (shows_iff.mp two))

/-- How reading a number ends. -/
inductive Outcome (maximum : Int) (text : String) : Except ScanError Nat → Prop where
  | notNumber : (¬ ∃ value, Shows text.toList value) →
      Outcome maximum text (.error (.notNumber (.text text)))
  | tooManyDigits : Overlong text.toList → Outcome maximum text (.error (.defect .tooManyDigits))
  | number {value : Nat} : Shows text.toList value → ¬ Overlong text.toList → value ≤ maximum →
      Outcome maximum text (.ok value)
  | tooBig {value : Nat} : Shows text.toList value → ¬ Overlong text.toList → maximum < value →
      Outcome maximum text (.error (.numberTooBig maximum text))

theorem outcome_unsigned (maximum : Int) (text : String) :
    Outcome maximum text (unsigned maximum text) := by
  cases found : numeral? (strip text.toList) with
  | none =>
    rw [unsigned_of_none maximum found]
    refine .notNumber ?_
    rintro ⟨value, shown⟩
    rw [shows_iff.mp shown] at found
    cases found
  | some value =>
    have shown := shows_iff.mpr found
    obtain ⟨base, digits, here, same⟩ := numeral?_eq_some.mp found
    have many := overlong_iff_of_numeral here
    rw [unsigned_of_numeral maximum here, ← same]
    split
    · rename_i long
      exact .tooManyDigits (many.mpr long)
    · rename_i fewer
      have short : ¬ Overlong text.toList := fun long => fewer (many.mp long)
      split
      · rename_i bound
        exact .number shown short bound
      · rename_i above
        exact .tooBig shown short (Int.not_le.mp above)

/-- What a text shows tells its outcome, so no text has two. -/
theorem Outcome.unique {maximum : Int} {text : String} {one other : Except ScanError Nat}
    (first : Outcome maximum text one) (second : Outcome maximum text other) : one = other := by
  cases first with
  | notNumber no =>
    cases second with
    | notNumber => rfl
    | tooManyDigits long => exact absurd long.shows no
    | number shown => exact absurd ⟨_, shown⟩ no
    | tooBig shown => exact absurd ⟨_, shown⟩ no
  | tooManyDigits long =>
    cases second with
    | notNumber no => exact absurd long.shows no
    | tooManyDigits => rfl
    | number _ short => exact absurd long short
    | tooBig _ short => exact absurd long short
  | number shown short bound =>
    cases second with
    | notNumber no => exact absurd ⟨_, shown⟩ no
    | tooManyDigits long => exact absurd long short
    | number again => rw [shown.unique again]
    | tooBig again _ above =>
      rw [shown.unique again] at bound
      omega
  | tooBig shown short above =>
    cases second with
    | notNumber no => exact absurd ⟨_, shown⟩ no
    | tooManyDigits long => exact absurd long short
    | number again _ bound =>
      rw [shown.unique again] at above
      omega
    | tooBig => rfl

theorem unsigned_eq_iff {maximum : Int} {text : String} {result : Except ScanError Nat} :
    unsigned maximum text = result ↔ Outcome maximum text result := by
  constructor
  · rintro rfl
    exact outcome_unsigned maximum text
  · exact (outcome_unsigned maximum text).unique

theorem unsigned_eq_ok_iff_shows {maximum : Int} {text : String} :
    unsigned maximum text = .ok value ↔
      Shows text.toList value ∧ ¬ Overlong text.toList ∧ value ≤ maximum := by
  rw [unsigned_eq_iff]
  constructor
  · intro ending
    cases ending with
    | number shown short bound => exact ⟨shown, short, bound⟩
  · rintro ⟨shown, short, bound⟩
    exact .number shown short bound

theorem unsigned_eq_notNumber {maximum : Int} {text : String} :
    unsigned maximum text = .error (.notNumber (.text text)) ↔
      ¬ ∃ value, Shows text.toList value := by
  rw [unsigned_eq_iff]
  constructor
  · intro ending
    cases ending with
    | notNumber no => exact no
  · exact .notNumber

theorem unsigned_eq_numberTooBig {maximum : Int} {text : String} :
    unsigned maximum text = .error (.numberTooBig maximum text) ↔
      ∃ value, Shows text.toList value ∧ ¬ Overlong text.toList ∧ maximum < value := by
  rw [unsigned_eq_iff]
  constructor
  · intro ending
    cases ending with
    | tooBig shown short above => exact ⟨_, shown, short, above⟩
  · rintro ⟨value, shown, short, above⟩
    exact .tooBig shown short above

theorem unsigned_eq_defect {maximum : Int} {text : String} {cause : Defect} :
    unsigned maximum text = .error (.defect cause) ↔
      cause = .tooManyDigits ∧ Overlong text.toList := by
  rw [unsigned_eq_iff]
  constructor
  · intro ending
    cases ending with
    | tooManyDigits long => exact ⟨rfl, long⟩
  · rintro ⟨rfl, long⟩
    exact .tooManyDigits long

/-- A reader of numbers takes the texts that denote one. -/
theorem converted_unsigned_eq_ok {β ε : Type} {maximum : Nat} (small : maximum < 2 ^ 32)
    {text : CodeText} {ofDefect : Defect → ε} {error : ε} {put : Nat → β} {next : β} :
    converted (unsigned maximum) text ofDefect error put = .ok next ↔
      ∃ value, Denotes maximum text value ∧ next = put value := by
  rw [converted_eq_ok]
  constructor
  · rintro ⟨plain, value, rfl, scanned, same⟩
    exact ⟨value, (unsigned_eq_ok small).mp scanned, same⟩
  · rintro ⟨value, denotes, same⟩
    obtain ⟨plain, rfl⟩ := denotes.exists_plain
    exact ⟨plain, value, rfl, (unsigned_eq_ok small).mpr denotes, same⟩

/-- A reader of numbers meets a defect just where a text has too many digits. -/
theorem converted_unsigned_eq_defect {β ε : Type} {maximum : Int} {text : CodeText}
    {ofDefect : Defect → ε} {error : ε} {put : Nat → β} {cause : Defect}
    (injective : Function.Injective ofDefect) (other : ∀ cause, error ≠ ofDefect cause) :
    converted (unsigned maximum) text ofDefect error put = .error (ofDefect cause) ↔
      cause = .tooManyDigits ∧ HasTooManyDigits text := by
  rw [converted_eq_defect injective other]
  constructor
  · rintro ⟨plain, same, met⟩
    obtain ⟨kind, long⟩ := unsigned_eq_defect.mp met
    exact ⟨kind, plain, same, long⟩
  · rintro ⟨kind, plain, same, long⟩
    exact ⟨plain, same, unsigned_eq_defect.mpr ⟨kind, long⟩⟩

/-- A number with too many digits is far above sixteen bits. -/
theorem Shows.not_overlong (shown : Shows text value) (small : value < 2 ^ 32) :
    ¬ Overlong text := by
  intro long
  obtain ⟨digits, here, many⟩ := overlong_iff.mp long
  have same := shown.unique (shows_iff_numeral.mpr ⟨10, digits, here, rfl⟩)
  have above := here.pow_le many
  have below := lt_pow_decimalLimit small
  omega

theorem numeral_toDigits_ten (n : Nat) : Numeral (Nat.toDigits 10 n) 10 (Nat.toDigits 10 n) := by
  by_cases zero : n = 0
  · rw [zero, Nat.toDigits_zero]
    exact .zero
  · have leading : ∀ d < 10, 0 < d → '1' ≤ d.digitChar ∧ d.digitChar ≤ '9' := by decide
    have all : ∀ c ∈ Nat.toDigits 10 n, '0' ≤ c ∧ c ≤ '9' :=
      forall_mem_toDigits (by decide) (by decide) n
    obtain ⟨d, rest, positive, small, split⟩ :=
      exists_toDigits_eq_cons (show 1 < 10 by decide) (Nat.pos_of_ne_zero zero)
    rw [split] at all ⊢
    exact .decimal (leading d small positive) fun c member => all c (List.mem_cons_of_mem _ member)

theorem numeral_octal (zeros n : Nat) :
    Numeral ('0' :: (List.replicate zeros '0' ++ Nat.toDigits 8 n)) 8
      (List.replicate zeros '0' ++ Nat.toDigits 8 n) := by
  have digit : ∀ c ∈ Nat.toDigits 8 n, '0' ≤ c ∧ c ≤ '7' :=
    forall_mem_toDigits (by decide) (by decide) n
  refine .octal (List.append_ne_nil_of_right_ne_nil _ Nat.toDigits_ne_nil) ?_
  exact forall_mem_zeros_append (by decide) digit zeros

/-- The case of the digits plays no part. -/
theorem numeral_hex {mark : Char} (marked : mark = 'x' ∨ mark = 'X') (zeros : Nat)
    (same : digits.map Char.toLower = Nat.toDigits 16 n) :
    Numeral ('0' :: mark :: (List.replicate zeros '0' ++ digits)) 16
      (List.replicate zeros '0' ++ digits) := by
  have some : digits ≠ [] := by
    rintro rfl
    exact Nat.toDigits_ne_nil same.symm
  have lower : ∀ c ∈ digits.map Char.toLower, isHexDigit c = true := by
    rw [same]
    exact forall_mem_toDigits (by decide) (by decide) n
  have digit : ∀ c ∈ digits, isHexDigit c = true := by
    intro c member
    rw [← (hexDigit_toLower c).1]
    exact lower _ (List.mem_map_of_mem member)
  refine .hex marked (List.append_ne_nil_of_right_ne_nil _ some) ?_
  exact forall_mem_zeros_append (by decide) digit zeros

theorem Writes.shows (written : Writes n text) : Shows text n := by
  cases written with
  | decimal =>
    exact (numeral_toDigits_ten n).shows (positional_toDigits (by decide) (by decide) n)
  | hex zeros marked same =>
    refine (numeral_hex marked zeros same).shows ?_
    rw [positional_zeros, ← positional_toLower, same]
    exact positional_toDigits (by decide) (by decide) n
  | octal zeros =>
    refine (numeral_octal zeros n).shows ?_
    rw [positional_zeros]
    exact positional_toDigits (by decide) (by decide) n

/-- A text is cut at its first hyphen. -/
theorem span_hyphen_iff {before after : List Char} {c : Char} :
    text.span (· != '-') = (before, c :: after) ↔
      c = '-' ∧ text = before ++ '-' :: after ∧ '-' ∉ before := by
  rw [List.span_eq_takeWhile_dropWhile, Prod.mk.injEq]
  constructor
  · intro ⟨front, rest⟩
    have stop := List.head?_dropWhile_not (· != '-') text
    rw [rest] at stop
    have hyphen : c = '-' := by simpa using stop
    refine ⟨hyphen, ?_, fun member => ?_⟩
    · rw [← hyphen, ← front, ← rest, List.takeWhile_append_dropWhile]
    · rw [← front] at member
      exact absurd (List.mem_takeWhile_imp member) (by decide)
  · rintro ⟨rfl, rfl, none⟩
    have other : ∀ c ∈ before, (c != '-') = true := by
      intro c member
      rw [bne_iff_ne]
      rintro rfl
      exact none member
    rw [List.takeWhile_append_of_pos other, List.dropWhile_append_of_pos other,
      List.takeWhile_cons_of_neg (by decide), List.dropWhile_cons_of_neg (by decide),
      List.append_nil]
    exact ⟨rfl, rfl⟩

theorem unsigned16_ofList {text : List Char} :
    unsigned16 (String.ofList text) = .ok value ↔ Shows text value ∧ value ≤ 0xffff := by
  rw [unsigned16, unsigned_eq_ok_iff_shows, String.toList_ofList]
  constructor
  · rintro ⟨shown, _, bound⟩
    exact ⟨shown, Int.ofNat_le.mp bound⟩
  · rintro ⟨shown, bound⟩
    exact ⟨shown, shown.not_overlong (Nat.lt_of_le_of_lt bound (by decide)), Int.ofNat_le.mpr bound⟩

theorem addressRange_eq_ok {text : String} {first last : Nat} :
    addressRange text = .ok (first, last) ↔
      ∃ before after, text.toList = before ++ '-' :: after ∧ '-' ∉ before ∧
        (Shows before first ∧ first ≤ 0xffff) ∧ (Shows after last ∧ last ≤ 0xffff) ∧
        first ≤ last := by
  unfold addressRange
  constructor
  · intro read
    rcases cut : text.toList.span (· != '-') with ⟨before, rest⟩
    rw [cut] at read
    cases rest with
    | nil => cases read
    | cons c after =>
      obtain ⟨-, split, none⟩ := span_hyphen_iff.mp cut
      simp only at read
      split at read
      · cases read
      obtain ⟨start, front, read⟩ := bind_eq_ok.mp read
      obtain ⟨stop, back, read⟩ := bind_eq_ok.mp read
      split at read
      · cases read
      · cases read
        exact ⟨before, after, split, none, unsigned16_ofList.mp front, unsigned16_ofList.mp back,
          by omega⟩
  · rintro ⟨before, after, split, none, front, back, order⟩
    have cut := span_hyphen_iff.mpr ⟨rfl, split, none⟩
    have ordered : ¬ last < first := by omega
    simp only [cut, front.1.strip_ne_nil, back.1.strip_ne_nil, or_self, ↓reduceIte,
      unsigned16_ofList.mpr front, unsigned16_ofList.mpr back]
    simp only [bind, Except.bind, ordered, ↓reduceIte]

example : addressRange "0x1800 - 017777" = .ok (0x1800, 0x1fff) := by decide

/-- Numbers are read in the three bases of C, and nothing else is: a number comes from the texts
that show it, up to the bound; any other text is no number, or one beyond the bound. Only a decimal
numeral of more than 4300 digits ends in neither. However a number is written in decimal, hex or
octal, it comes back. A range is read where the text is two numbers of sixteen bits with its first
hyphen between them, in order. -/
theorem unsigned_numerals (maximum : Int) (text : String) :
    (∀ value, unsigned maximum text = .ok value ↔
        Shows text.toList value ∧ ¬ Overlong text.toList ∧ value ≤ maximum) ∧
      (unsigned maximum text = .error (.notNumber (.text text)) ↔
        ¬ ∃ value, Shows text.toList value) ∧
      (unsigned maximum text = .error (.numberTooBig maximum text) ↔
        ∃ value, Shows text.toList value ∧ ¬ Overlong text.toList ∧ maximum < value) ∧
      (∀ cause, unsigned maximum text = .error (.defect cause) ↔
        cause = .tooManyDigits ∧ Overlong text.toList) ∧
      (∀ n written, Writes n written → ¬ Overlong written → n ≤ maximum →
        unsigned maximum (String.ofList written) = .ok n) ∧
      ∀ first last, addressRange text = .ok (first, last) ↔
        ∃ before after, text.toList = before ++ '-' :: after ∧ '-' ∉ before ∧
          (Shows before first ∧ first ≤ 0xffff) ∧ (Shows after last ∧ last ≤ 0xffff) ∧
          first ≤ last := by
  refine ⟨fun _ => unsigned_eq_ok_iff_shows, unsigned_eq_notNumber, unsigned_eq_numberTooBig,
    fun _ => unsigned_eq_defect, ?_, fun _ _ => addressRange_eq_ok⟩
  intro n written ways short bound
  rw [unsigned_eq_ok_iff_shows, String.toList_ofList]
  exact ⟨ways.shows, short, bound⟩

theorem unsigned_numerals_mixed :
    Writes 0x1ab ('0' :: 'X' :: (List.replicate 3 '0' ++ ['1', 'a', 'B'])) ∧
      ¬ Overlong ('0' :: 'X' :: (List.replicate 3 '0' ++ ['1', 'a', 'B'])) ∧
      ((0x1ab : Nat) : Int) ≤ 0xffff ∧ unsigned 0xffff "0X0001aB" = .ok 0x1ab := by
  have written : Writes 0x1ab ('0' :: 'X' :: (List.replicate 3 '0' ++ ['1', 'a', 'B'])) :=
    .hex 3 (Or.inr rfl) (by decide)
  have short := written.shows.not_overlong (by decide)
  exact ⟨written, short, by decide,
    (unsigned_numerals 0xffff "").2.2.2.2.1 0x1ab _ written short (by decide)⟩

end MemoryBoard.Scan
