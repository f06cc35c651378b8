import MemoryBoard.Text.Digits
import MemoryBoard.Text.Utf8

set_option autoImplicit false

/- Texts by their code points. An escape can name a surrogate, which is no character: a text with
one is no string of characters and has no UTF-8 form. -/
namespace MemoryBoard.Text

inductive CodePoint where
  | char (c : Char)
  /-- One of the surrogates, counted from the first. -/
  | surrogate (index : Fin 0x800)
deriving DecidableEq, Repr, Inhabited

namespace CodePoint

def firstSurrogate : Nat := 0xd800

def ofNat? (code : Nat) : Option CodePoint :=
  if valid : code.isValidChar then some (.char (Char.ofNatAux code valid))
  else if inside : code - firstSurrogate < 0x800 then some (.surrogate ⟨_, inside⟩)
  else none

/-- The shortest escape that can hold a number. -/
def escape (code : Nat) : List Char :=
  let digits := lowerHex code
  if code < 0x100 then '\x5c' :: 'x' :: digits.leftpad 2 '0'
  else if code < 0x10000 then '\x5c' :: 'u' :: digits.leftpad 4 '0'
  else '\x5c' :: 'U' :: digits.leftpad 8 '0'

/-- A code point as the error stream shows it. -/
def shown : CodePoint → List Char
  | char c => [c]
  | surrogate index => escape (firstSurrogate + index)

/-- The bytes that a code point has in a name of the system. A byte of a name that is no part of
UTF-8 is told by a surrogate; the other surrogates have no bytes. -/
def nameBytes? : CodePoint → Option Bytes
  | char c => some (String.utf8EncodeChar c)
  | surrogate index =>
    if 0x480 ≤ index.val ∧ index.val < 0x500 then some [UInt8.ofNat (index.val - 0x400)] else none

end CodePoint

/-- A text by its code points. -/
abbrev CodeText := List CodePoint

namespace CodeText

def ofString (text : String) : CodeText :=
  text.toList.map .char

instance : Coe String CodeText := ⟨ofString⟩

/-- The characters, if there is no surrogate among them. -/
def chars? : CodeText → Option (List Char)
  | [] => some []
  | .char c :: rest => (chars? rest).map (c :: ·)
  | .surrogate _ :: _ => none

def string? (text : CodeText) : Option String :=
  text.chars?.map String.ofList

/-- The UTF-8 form, if there is one. -/
def utf8? (text : CodeText) : Option Bytes :=
  text.chars?.map encodeUtf8

/-- The form that a text has as a name of the system. -/
def nameForm? (text : CodeText) : Option Bytes :=
  (text.mapM CodePoint.nameBytes?).map List.flatten

/-- The text as the error stream shows it. -/
def shown (text : CodeText) : String :=
  String.ofList (text.flatMap CodePoint.shown)

theorem chars?_map (chars : List Char) : chars? (chars.map .char) = some chars := by
  induction chars with
  | nil => rfl
  | cons c rest ih => simp only [List.map_cons, chars?, ih, Option.map_some]

theorem chars?_eq_some {text : CodeText} {chars : List Char} :
    text.chars? = some chars ↔ text = chars.map .char := by
  constructor
  · intro plain
    induction text generalizing chars with
    | nil =>
      cases plain
      rfl
    | cons point rest ih =>
      cases point with
      | char c =>
        obtain ⟨later, found, rfl⟩ := Option.map_eq_some_iff.mp plain
        rw [ih found, List.map_cons]
      | surrogate index => cases plain
  · rintro rfl
    exact chars?_map chars

theorem string?_eq_some {text : CodeText} {plain : String} :
    text.string? = some plain ↔ text = plain := by
  rw [string?, Option.map_eq_some_iff]
  constructor
  · rintro ⟨chars, found, rfl⟩
    rw [chars?_eq_some.mp found, ofString, String.toList_ofList]
  · rintro rfl
    exact ⟨plain.toList, chars?_map plain.toList, String.ofList_toList⟩

@[simp] theorem string?_ofString (text : String) : string? text = some text :=
  string?_eq_some.mpr rfl

/-- Whether there is no surrogate in a text. -/
def IsPlain (text : CodeText) : Prop :=
  ∃ plain : String, text = plain

theorem utf8?_eq_some {text : CodeText} {bytes : Bytes} : text.utf8? = some bytes ↔
    ∃ plain : String, text = plain ∧ bytes = encodeUtf8 plain.toList := by
  rw [utf8?, Option.map_eq_some_iff]
  constructor
  · rintro ⟨chars, found, rfl⟩
    refine ⟨String.ofList chars, ?_, by rw [String.toList_ofList]⟩
    rw [chars?_eq_some.mp found, ofString, String.toList_ofList]
  · rintro ⟨plain, rfl, rfl⟩
    exact ⟨plain.toList, chars?_map plain.toList, rfl⟩

theorem utf8?_eq_none {text : CodeText} : text.utf8? = none ↔ ¬ text.IsPlain := by
  rw [Option.eq_none_iff_forall_ne_some]
  constructor
  · rintro none ⟨plain, same⟩
    exact none _ (utf8?_eq_some.mpr ⟨plain, same, rfl⟩)
  · intro surrogate bytes form
    obtain ⟨plain, same, _⟩ := utf8?_eq_some.mp form
    exact surrogate ⟨plain, same⟩

theorem string?_bind_eq_some {α : Type} {text : CodeText} {f : String → Option α} {value : α} :
    text.string?.bind f = some value ↔ ∃ plain : String, text = plain ∧ f plain = some value := by
  simp only [Option.bind_eq_some_iff, string?_eq_some]

theorem ofString_append (first second : String) :
    (↑(first ++ second) : CodeText) = ↑first ++ ↑second := by
  rw [ofString, String.toList_append, List.map_append, ofString, ofString]

@[simp] theorem ofString_inj {first second : String} :
    (first : CodeText) = (second : CodeText) ↔ first = second := by
  rw [← string?_eq_some, string?_ofString, Option.some.injEq]

@[simp] theorem utf8?_ofString (text : String) :
    utf8? text = some (encodeUtf8 text.toList) :=
  congrArg (Option.map encodeUtf8) (chars?_map text.toList)

end CodeText

end MemoryBoard.Text
