import Mathlib.Data.List.Forall2
import MemoryBoard.Proofs.Except
import MemoryBoard.Proofs.Text.HexNumeral
import MemoryBoard.Scan.ByteText

set_option autoImplicit false

namespace MemoryBoard.Scan

open Text

/-- Whether a character is the octal digit of a value. -/
def IsOctalDigitFor (value : Nat) (c : Char) : Prop :=
  "01234567".toList[value]? = some c

instance (value : Nat) (c : Char) : Decidable (IsOctalDigitFor value c) :=
  inferInstanceAs (Decidable (_ = _))

/-- A byte, and the characters that can stand for it. -/
inductive Token : List Char → UInt8 → Prop where
  | plain {c : Char} {byte : UInt8} : c ≠ '\x5c' → c.toNat = byte.toNat → Token [c] byte
  | backslash : Token ['\x5c', '\x5c'] 0x5c
  | quote : Token ['\x5c', '\x22'] 0x22
  | octal {high middle low : Nat} {first second third : Char} {byte : UInt8} :
      high ≤ 3 → IsOctalDigitFor high first → IsOctalDigitFor middle second →
      IsOctalDigitFor low third → byte.toNat = 64 * high + 8 * middle + low →
      Token ['\x5c', first, second, third] byte
  | hex {first second : Char} {byte : UInt8} :
      IsHexField 2 [first, second] byte.toNat → Token ['\x5c', 'x', first, second] byte

/-- A text cut into tokens, with the byte of each. -/
structure Spells (tokens : List (List Char)) (bytes : Bytes) (text : List Char) : Prop where
  joined : tokens.flatten = text
  each : List.Forall₂ Token tokens bytes

theorem isOctalDigitFor_iff {value : Nat} {c : Char} :
    IsOctalDigitFor value c ↔ isOctalDigit c = true ∧ value = digitValue c := by
  constructor
  · have table : ∀ index : Fin 8, isOctalDigit "01234567".toList[index] = true ∧
        index.val = digitValue "01234567".toList[index] := by decide
    intro digit
    obtain ⟨inside, rfl⟩ := List.getElem?_eq_some_iff.mp digit
    exact table ⟨value, inside⟩
  · have small : ∀ code < 0x80, isHexDigit (Char.ofNat code) = true →
        isOctalDigit (Char.ofNat code) = true →
          IsOctalDigitFor (digitValue (Char.ofNat code)) (Char.ofNat code) := by decide
    intro ⟨digit, same⟩
    have bounds : '0' ≤ c ∧ c ≤ '7' := by
      simpa only [isOctalDigit, Bool.and_eq_true, decide_eq_true_eq] using digit
    have hex := isHexDigit_of_le_nine bounds.1 (Char.le_trans bounds.2 (by decide))
    rw [same]
    exact hexDigit_all (fun c => isOctalDigit c = true → IsOctalDigitFor (digitValue c) c) small
      hex digit

theorem IsOctalDigitFor.lt {value : Nat} {c : Char} (digit : IsOctalDigitFor value c) :
    value < 8 :=
  (List.getElem?_eq_some_iff.mp digit).1

/-- The first digits that leave room for two more in a byte. -/
theorem IsOctalDigitFor.le_three_iff {value : Nat} {c : Char} (digit : IsOctalDigitFor value c) :
    value ≤ 3 ↔ '0' ≤ c ∧ c ≤ '3' := by
  have table : ∀ index : Fin 8,
      index.val ≤ 3 ↔ '0' ≤ "01234567".toList[index] ∧ "01234567".toList[index] ≤ '3' := by
    decide
  obtain ⟨inside, rfl⟩ := List.getElem?_eq_some_iff.mp digit
  exact table ⟨value, inside⟩

theorem octalByte_eq_ok {first second third : Char} {byte : UInt8} :
    octalByte [first, second, third] = .ok byte ↔
      ∃ high middle low, IsOctalDigitFor high first ∧ IsOctalDigitFor middle second ∧
        IsOctalDigitFor low third ∧ byte = UInt8.ofNat (64 * high + 8 * middle + low) := by
  have value : positional 8 [first, second, third] =
      64 * digitValue first + 8 * digitValue second + digitValue third := by
    simp only [positional, List.foldl_cons, List.foldl_nil]
    omega
  have whole : [first, second, third].take 3 = [first, second, third] := rfl
  simp only [octalByte, whole, value, List.length_cons, List.length_nil, Nat.lt_irrefl, ↓reduceIte]
  constructor
  · intro scanned
    split at scanned
    · cases scanned
    rename_i valid
    cases scanned
    have digit : ∀ c ∈ [first, second, third], IsOctalDigitFor (digitValue c) c := by
      intro c member
      have octal : isOctalDigit c = true := by simpa using List.find?_eq_none.mp valid c member
      exact isOctalDigitFor_iff.mpr ⟨octal, rfl⟩
    exact ⟨_, _, _, digit first (by simp), digit second (by simp), digit third (by simp), rfl⟩
  · rintro ⟨high, middle, low, highDigit, middleDigit, lowDigit, same⟩
    obtain ⟨firstOctal, rfl⟩ := isOctalDigitFor_iff.mp highDigit
    obtain ⟨secondOctal, rfl⟩ := isOctalDigitFor_iff.mp middleDigit
    obtain ⟨thirdOctal, rfl⟩ := isOctalDigitFor_iff.mp lowDigit
    have valid : [first, second, third].find? (!isOctalDigit ·) = none := by
      rw [List.find?_eq_none]
      simp [firstOctal, secondOctal, thirdOctal]
    rw [valid, same]

theorem hexByte_eq_ok {first second : Char} {number : Nat} :
    hexByte [first, second] = .ok number ↔ IsHexField 2 [first, second] number := by
  rw [hexByte, hexDigits_eq_ok]
  constructor
  · intro ⟨field, rest, split, digits⟩
    have whole : [first, second] ++ [] = field ++ rest := split
    have same : [first, second] = field := (List.append_inj whole digits.1.symm).1
    rw [same]
    exact digits
  · intro digits
    exact ⟨[first, second], [], rfl, digits⟩

/-- How far the token at the beginning of a text goes: two characters tell. -/
def tokenWidth : List Char → Nat
  | first :: second :: _ =>
    if first ≠ '\x5c' then 1 else if second = '\x5c' ∨ second = '\x22' then 2 else 4
  | _ => 1

theorem ofNat_of_toNat_eq {number : Nat} {byte : UInt8} (same : byte.toNat = number) :
    UInt8.ofNat number = byte := by
  rw [← same, UInt8.ofNat_toNat]

theorem IsOctalDigitFor.ne_escape {value : Nat} {c : Char} (digit : IsOctalDigitFor value c) :
    ¬ (c = '\x5c' ∨ c = '\x22') := by
  have octal := (isOctalDigitFor_iff.mp digit).1
  rintro (rfl | rfl)
  · exact absurd octal (by decide)
  · exact absurd octal (by decide)

variable {token : List Char} {byte : UInt8}

theorem Token.length (here : Token token byte) (rest : List Char) :
    token.length = tokenWidth (token ++ rest) := by
  cases here with
  | plain other =>
    cases rest with
    | nil => rfl
    | cons second rest =>
      simp only [List.singleton_append, tokenWidth, other, ne_eq, not_false_eq_true, ↓reduceIte,
        List.length_singleton]
  | backslash => rfl
  | quote => rfl
  | octal _ digit =>
    have other := digit.ne_escape
    simp only [List.cons_append, tokenWidth, other, ne_eq, not_true_eq_false, ↓reduceIte,
      List.length_cons, List.length_nil]
  | hex => rfl

/-- One token is read as its byte, whatever stands behind it. -/
theorem byteTextFrom_token (here : Token token byte) (whole : String) (offset : Nat)
    (done : Bytes) (rest : List Char) :
    byteTextFrom whole offset done (token ++ rest) =
      byteTextFrom whole (offset + token.length) (byte :: done) rest := by
  cases here with
  | @plain c _ other same =>
    have narrow : c.toNat ≤ 0xff := by
      have bound := byte.toNat_lt
      omega
    rw [List.singleton_append, byteTextFrom.eq_def]
    simp only [other, ne_eq, not_false_eq_true, narrow, ↓reduceIte, ofNat_of_toNat_eq same.symm,
      List.length_singleton]
  | backslash =>
    rw [List.cons_append, List.singleton_append, byteTextFrom.eq_def]
    rfl
  | quote =>
    rw [List.cons_append, List.singleton_append, byteTextFrom.eq_def]
    rfl
  | @octal high middle low first second third _ small highDigit middleDigit lowDigit same =>
    have scanned : octalByte [first, second, third] = .ok byte :=
      octalByte_eq_ok.mpr
        ⟨high, middle, low, highDigit, middleDigit, lowDigit, (ofNat_of_toNat_eq same).symm⟩
    have other := highDigit.ne_escape
    have front := highDigit.le_three_iff.mp small
    simp only [List.cons_append, List.nil_append]
    rw [byteTextFrom.eq_def]
    simp only [ne_eq, not_true_eq_false, other, front, and_self, scanned, ↓reduceIte,
      List.length_cons, List.length_nil]
  | @hex first second _ digits =>
    have scanned := hexByte_eq_ok.mpr digits
    simp only [List.cons_append, List.nil_append]
    rw [byteTextFrom.eq_def]
    simp only [scanned, UInt8.ofNat_toNat]
    rfl

/-- A byte can be written in hex, in octal and, unless it is a backslash, as its character. -/
theorem token_of_byte (byte : UInt8) :
    Token ('\x5c' :: 'x' :: hexField 2 byte.toNat) byte ∧
      (∃ first second third, Token ['\x5c', first, second, third] byte) ∧
      (byte ≠ 0x5c → Token [Char.ofNat byte.toNat] byte) := by
  have bound := byte.toNat_lt
  refine ⟨?_, ?_, ?_⟩
  · have digits : IsHexField 2 (hexField 2 byte.toNat) byte.toNat :=
      isHexField_hexField (by decide) bound
    obtain ⟨_, _, first, second, same, _⟩ := isHexField_two.mp digits
    rw [same] at digits ⊢
    exact .hex digits
  · have digit : ∀ value < 8, ∃ c, IsOctalDigitFor value c := by
      intro value small
      exact ⟨"01234567".toList[value], List.getElem?_eq_getElem small⟩
    obtain ⟨first, high⟩ := digit (byte.toNat / 64) (by omega)
    obtain ⟨second, middle⟩ := digit (byte.toNat / 8 % 8) (by omega)
    obtain ⟨third, low⟩ := digit (byte.toNat % 8) (by omega)
    exact ⟨first, second, third, .octal (by omega) high middle low (by omega)⟩
  · intro other
    have code := toNat_ofNat_byte byte
    refine .plain ?_ code
    intro same
    rw [same] at code
    exact other (UInt8.toNat_inj.mp code.symm)

variable {tokens others : List (List Char)} {bytes values done : Bytes} {text rest : List Char}

theorem Spells.nil : Spells [] [] [] :=
  ⟨rfl, .nil⟩

theorem Spells.cons (here : Token token byte) (later : Spells tokens bytes text) :
    Spells (token :: tokens) (byte :: bytes) (token ++ text) :=
  ⟨by rw [List.flatten_cons, later.joined], .cons here later.each⟩

/-- A run over tokens collects their bytes and goes on behind them. -/
theorem byteTextFrom_tokens (spelled : Spells tokens bytes text) (whole : String) (offset : Nat)
    (done : Bytes) (rest : List Char) :
    byteTextFrom whole offset done (text ++ rest) =
      byteTextFrom whole (offset + text.length) (bytes.reverse ++ done) rest := by
  obtain ⟨rfl, each⟩ := spelled
  induction each generalizing offset done with
  | nil => rfl
  | @cons token byte tokens bytes here _ ih =>
    rw [List.flatten_cons, List.append_assoc, byteTextFrom_token here, ih, List.length_append,
      Nat.add_assoc, List.reverse_cons, List.append_assoc, List.singleton_append]

/-- A token in front of what is made of tokens. -/
theorem spells_token (here : Token token byte)
    (later : ∃ tokens more, Spells tokens more rest ∧ bytes = (byte :: done).reverse ++ more) :
    ∃ tokens more, Spells tokens more (token ++ rest) ∧ bytes = done.reverse ++ more := by
  obtain ⟨tokens, more, spelled, same⟩ := later
  refine ⟨token :: tokens, byte :: more, spelled.cons here, ?_⟩
  rw [same, List.reverse_cons, List.append_assoc, List.singleton_append]

/-- A run that comes to the end of the text has found nothing but tokens. -/
theorem spells_of_byteTextFrom {whole : String} {offset : Nat}
    (scanned : byteTextFrom whole offset done text = .ok bytes) :
    ∃ tokens more, Spells tokens more text ∧ bytes = done.reverse ++ more := by
  fun_induction byteTextFrom whole offset done text with
  | case1 =>
    cases scanned
    exact ⟨[], [], .nil, (List.append_nil _).symm⟩
  | case2 offset done c rest other narrow ih =>
    have bound : c.toNat < UInt8.size := Nat.lt_succ_of_le narrow
    have same := UInt8.toNat_ofNat_of_lt' bound
    exact spells_token (.plain other same.symm) (ih scanned)
  | case5 offset done c backslash escape rest other ih =>
    have first : c = '\x5c' := not_not.mp backslash
    subst first
    rcases other with rfl | rfl
    · exact spells_token .backslash (ih scanned)
    · exact spells_token .quote (ih scanned)
  | case6 offset done c backslash escape _ front second third rest byte octal ih =>
    have first : c = '\x5c' := not_not.mp backslash
    subst first
    obtain ⟨high, middle, low, highDigit, middleDigit, lowDigit, rfl⟩ := octalByte_eq_ok.mp octal
    have small := highDigit.le_three_iff.mpr front
    have bound : 64 * high + 8 * middle + low < UInt8.size := by
      have middleBound := middleDigit.lt
      have lowBound := lowDigit.lt
      change _ < 256
      omega
    have value := UInt8.toNat_ofNat_of_lt' bound
    exact spells_token (.octal small highDigit middleDigit lowDigit value) (ih scanned)
  | case9 offset done c backslash first second rest number hex _ _ ih =>
    have mark : c = '\x5c' := not_not.mp backslash
    subst mark
    have digits := hexByte_eq_ok.mp hex
    have value : (UInt8.ofNat number).toNat = number := UInt8.toNat_ofNat_of_lt' digits.lt
    rw [← value] at digits
    exact spells_token (.hex digits) (ih scanned)
  -- The other cases are those of an error.
  | case3 | case4 | case7 | case8 | case10 | case11 | case12 => cases scanned

theorem byteTextFrom_eq_ok {whole : String} {offset : Nat} :
    byteTextFrom whole offset done text = .ok bytes ↔
      ∃ tokens more, Spells tokens more text ∧ bytes = done.reverse ++ more := by
  constructor
  · exact spells_of_byteTextFrom
  · intro ⟨tokens, more, spelled, same⟩
    have run := byteTextFrom_tokens spelled whole offset done []
    rw [List.append_nil, byteTextFrom, List.reverse_append, List.reverse_reverse] at run
    rw [run, same]

theorem byteText_eq_ok {text : String} :
    byteText text = .ok bytes ↔ ∃ tokens, Spells tokens bytes text.toList := by
  rw [byteText, byteTextFrom_eq_ok]
  constructor
  · intro ⟨tokens, more, spelled, same⟩
    rw [List.reverse_nil, List.nil_append] at same
    rw [same]
    exact ⟨tokens, spelled⟩
  · intro ⟨tokens, spelled⟩
    exact ⟨tokens, bytes, spelled, rfl⟩

theorem byteText_eq_error {text : String} :
    (∃ error, byteText text = .error error) ↔
      ¬ ∃ tokens bytes, Spells tokens bytes text.toList := by
  constructor
  · intro ⟨error, failed⟩ ⟨tokens, bytes, spelled⟩
    rw [byteText_eq_ok.mpr ⟨tokens, spelled⟩] at failed
    cases failed
  · intro none
    cases scanned : byteText text with
    | error error => exact ⟨error, rfl⟩
    | ok bytes =>
      obtain ⟨tokens, spelled⟩ := byteText_eq_ok.mp scanned
      exact absurd ⟨tokens, bytes, spelled⟩ none

/-- What is wrong with such a text is told by an error of the scan's own. -/
theorem byteText_ne_defect {text : String} {cause : Defect} :
    byteText text ≠ .error (.defect cause) := by
  have octal {field : List Char} : octalByte field ≠ .error (.defect cause) := by
    unfold octalByte
    simp only
    split
    · nofun
    · split <;> nofun
  have hex {field : List Char} : hexByte field ≠ .error (.defect cause) := by
    unfold hexByte hexDigits
    simp only
    split
    · nofun
    · split <;> nofun
  have from_ne (whole : String) (offset : Nat) (done : Bytes) (rest : List Char) :
      byteTextFrom whole offset done rest ≠ .error (.defect cause) := by
    fun_induction byteTextFrom whole offset done rest with
    | case2 => assumption
    | case5 => assumption
    | case6 => assumption
    | case9 => assumption
    | case7 _ _ _ _ _ _ _ _ _ _ error refused =>
      rintro ⟨⟩
      exact octal refused
    | case10 =>
      rintro ⟨⟩
      exact hex ‹_›
    | case1 | case3 | case4 | case8 | case11 | case12 => nofun
  exact from_ne text 0 [] text.toList

/-- No token goes on where another one could end. -/
theorem Token.unique {other more : List Char} {value : UInt8} (here : Token token byte)
    (there : Token other value) (same : token ++ rest = other ++ more) :
    token = other ∧ rest = more := by
  have width : token.length = other.length := by
    rw [here.length rest, there.length more, same]
  exact List.append_inj same width

theorem Token.ne_nil (here : Token token byte) : token ≠ [] := by
  intro same
  rw [same] at here
  cases here

/-- There is one way only to cut a text into tokens. -/
theorem Spells.tokens_unique (spelled : Spells tokens bytes text)
    (again : Spells others values text) : tokens = others := by
  obtain ⟨rfl, each⟩ := spelled
  induction each generalizing others values with
  | nil =>
    obtain ⟨joined, all⟩ := again
    cases all with
    | nil => rfl
    | cons there _ => exact absurd (List.append_eq_nil_iff.mp joined).1 there.ne_nil
  | cons here _ ih =>
    obtain ⟨joined, all⟩ := again
    cases all with
    | nil => exact absurd (List.append_eq_nil_iff.mp joined.symm).1 here.ne_nil
    | cons there behind =>
      obtain ⟨same, rest⟩ := there.unique here joined
      rw [same, ih ⟨rest, behind⟩]

/-- The bytes are what the reader finds, so a text has them once. -/
theorem Spells.unique (spelled : Spells tokens bytes text) (again : Spells others values text) :
    tokens = others ∧ bytes = values := by
  refine ⟨spelled.tokens_unique again, ?_⟩
  rw [← String.toList_ofList (l := text)] at spelled again
  have first := byteText_eq_ok.mpr ⟨tokens, spelled⟩
  have second := byteText_eq_ok.mpr ⟨others, again⟩
  rw [first] at second
  exact Except.ok.inj second

/-- Behind a text that is read, any other text is read as it is alone. -/
theorem byteText_append {text : String} (scanned : byteText text = .ok bytes) (rest : String) :
    (byteText (text ++ rest)).toOption = (byteText rest).toOption.map (bytes ++ ·) := by
  obtain ⟨tokens, spelled⟩ := byteText_eq_ok.mp scanned
  ext result
  rw [byteText, String.toList_append, byteTextFrom_tokens spelled, toOption_eq_some,
    byteTextFrom_eq_ok, Option.map_eq_some_iff, List.append_nil, List.reverse_reverse]
  simp only [toOption_eq_some, byteText_eq_ok]
  constructor
  · intro ⟨others, more, behind, same⟩
    exact ⟨more, ⟨others, behind⟩, same.symm⟩
  · intro ⟨more, ⟨others, behind⟩, same⟩
    exact ⟨others, more, behind, same.symm⟩

/-- The reader of byte strings takes just the texts made of tokens, each of which is cut in one way
and stands for the bytes of its tokens. A text in front changes nothing in what follows, and every
byte string can be written in any of the ways to write its bytes. -/
theorem byteText_tokens (text : String) :
    (∀ bytes, byteText text = .ok bytes ↔ ∃ tokens, Spells tokens bytes text.toList) ∧
      (∀ tokens others bytes values, Spells tokens bytes text.toList →
        Spells others values text.toList → tokens = others ∧ bytes = values) ∧
      ((∃ error, byteText text = .error error) ↔
        ¬ ∃ tokens bytes, Spells tokens bytes text.toList) ∧
      (∀ bytes, byteText text = .ok bytes → ∀ rest,
        (byteText (text ++ rest)).toOption = (byteText rest).toOption.map (bytes ++ ·)) ∧
      (∀ tokens bytes, List.Forall₂ Token tokens bytes →
        byteText (String.ofList tokens.flatten) = .ok bytes) ∧
      ∀ byte : UInt8, Token ('\x5c' :: 'x' :: hexField 2 byte.toNat) byte ∧
        (∃ first second third, Token ['\x5c', first, second, third] byte) ∧
        (byte ≠ 0x5c → Token [Char.ofNat byte.toNat] byte) := by
  refine ⟨fun _ => byteText_eq_ok, fun _ _ _ _ => Spells.unique, byteText_eq_error,
    fun _ => byteText_append, ?_, token_of_byte⟩
  intro tokens bytes each
  rw [byteText_eq_ok, String.toList_ofList]
  exact ⟨tokens, rfl, each⟩

end MemoryBoard.Scan
