import MemoryBoard.Scan.Error
import MemoryBoard.Text.Blank

set_option autoImplicit false

namespace MemoryBoard.Scan

open Text

/-- The number in the first `count` characters, all of them hex digits. -/
def hexDigits (count : Nat) (text : List Char) : Except ScanError Nat :=
  let field := text.take count
  if field.length < count then .error (.fewHexDigits count (String.ofList text))
  else match field.find? (!isHexDigit ·) with
    | some digit => .error (.badHexDigit digit (String.ofList field))
    | none => .ok (positional 16 field)

def hexByte (text : List Char) : Except ScanError Nat :=
  hexDigits 2 text

def hexWord (text : List Char) : Except ScanError Nat :=
  hexDigits 4 text

/-- The low eight bits of the number in the first three characters, all of them octal digits. -/
def octalByte (text : List Char) : Except ScanError UInt8 :=
  let field := text.take 3
  if field.length < 3 then .error (.fewOctalDigits (String.ofList text))
  else match field.find? (!isOctalDigit ·) with
    | some digit => .error (.badOctalDigit digit (String.ofList field))
    | none => .ok (UInt8.ofNat (positional 8 field))

/-- The base a numeral selects by its first characters, and what is left to read in that base. -/
def radix : List Char → Nat × List Char
  | '0' :: 'x' :: rest => (16, rest)
  | '0' :: 'X' :: rest => (16, rest)
  | '0' :: digit :: rest => (8, digit :: rest)
  | text => (10, text)

def isDigitIn (base : Nat) (c : Char) : Bool :=
  isHexDigit c && digitValue c < base

/-- The value of a numeral: `0x` selects base sixteen, another leading `0` base eight. -/
def numeral? (text : List Char) : Option Nat :=
  let (base, digits) := radix text
  if digits ≠ [] ∧ digits.all (isDigitIn base) then some (positional base digits) else none

/-- The most decimal digits that are converted. The other bases have no such limit. -/
def decimalLimit : Nat := 4300

def isOverlong (text : List Char) : Bool :=
  let (base, digits) := radix text
  base == 10 && decimalLimit < digits.length

/-- An unsigned number up to `maximum`, with white space around it allowed. -/
def unsigned (maximum : Int) (text : String) : Except ScanError Nat :=
  let numeral := strip text.toList
  match numeral? numeral with
  | none => .error (.notNumber (.text text))
  | some value =>
    if isOverlong numeral then .error (.defect .tooManyDigits)
    else if value ≤ maximum then .ok value
    else .error (.numberTooBig maximum text)

def unsigned8 (text : String) : Except ScanError Nat :=
  unsigned 0xff text

def unsigned16 (text : String) : Except ScanError Nat :=
  unsigned 0xffff text

def unsigned32 (text : String) : Except ScanError Nat :=
  unsigned 0xffffffff text

/-- A number given as any value: only text can hold one. -/
def unsignedValue (maximum : Int) : Value → Except ScanError Nat
  | .text text => unsigned maximum text
  | value => .error (.notNumber value)

/-- An inclusive range of addresses, split at the first hyphen. -/
def addressRange (text : String) : Except ScanError (Nat × Nat) :=
  let (first, rest) := text.toList.span (· != '-')
  match rest with
  | [] => .error (.notRange text)
  | _ :: last =>
    if strip first = [] ∨ strip last = [] then .error (.notRange text)
    else do
      let start ← unsigned16 (String.ofList first)
      let stop ← unsigned16 (String.ofList last)
      if stop < start then .error (.reversedRange text) else .ok (start, stop)

end MemoryBoard.Scan
