set_option autoImplicit false

namespace MemoryBoard.Text

def isHexDigit (c : Char) : Bool :=
  ('0' ≤ c && c ≤ '9') || ('A' ≤ c && c ≤ 'F') || ('a' ≤ c && c ≤ 'f')

def isOctalDigit (c : Char) : Bool :=
  '0' ≤ c && c ≤ '7'

/-- The value of a hex digit of either case. Other characters get a number without meaning. -/
def hexNibble (c : Char) : Int :=
  let code : Int := c.toUpper.toNat
  if code ≤ 57 then code - 48 else code - 55

/-- The value of a digit in any base up to sixteen. -/
def digitValue (c : Char) : Nat :=
  (hexNibble c).toNat

/-- Positional value, most significant digit first. -/
def positional (base : Nat) (digits : List Char) : Nat :=
  digits.foldl (fun value c => value * base + digitValue c) 0

def upperHex (n : Nat) : List Char :=
  (Nat.toDigits 16 n).map Char.toUpper

def lowerHex (n : Nat) : List Char :=
  Nat.toDigits 16 n

/-- The digits of `n` in upper-case hex with zeros in front up to `width`. -/
def hexField (width n : Nat) : List Char :=
  (upperHex n).leftpad width '0'

/-- A number with zeros between its sign and marker and its digits, `width` counting them all. -/
def signedField (width : Nat) (marker : List Char) (digits : Nat → List Char) (x : Int) :
    List Char :=
  let lead := (if x < 0 then ['-'] else []) ++ marker
  lead ++ (digits x.natAbs).leftpad (width - lead.length) '0'

/-- Upper-case hex with zeros up to `width`, a minus sign counting as one of the places. -/
def hexNumber (width : Nat) (x : Int) : String :=
  String.ofList (signedField width [] upperHex x)

/-- Lower-case hex behind `0x`, both counting toward `width`. -/
def markedHex (width : Nat) (x : Int) : String :=
  String.ofList (signedField width ['0', 'x'] lowerHex x)

end MemoryBoard.Text
