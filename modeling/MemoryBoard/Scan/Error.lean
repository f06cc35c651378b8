import MemoryBoard.Defect
import MemoryBoard.Text.Value

set_option autoImplicit false

namespace MemoryBoard

open Text

inductive ScanError where
  | fewHexDigits (wanted : Nat) (text : String)
  | badHexDigit (digit : Char) (text : String)
  | fewOctalDigits (text : String)
  | badOctalDigit (digit : Char) (text : String)
  | notNumber (value : Value)
  | numberTooBig (maximum : Int) (text : String)
  | notBoolean (text : String)
  | notAmong (text : String) (table : List String)
  | wideCharacter (character : Char)
  | badEscape (offset : Nat) (text : String)
  | notRange (text : String)
  | reversedRange (text : String)
  | defect (cause : Defect)
deriving DecidableEq, Repr

def ScanError.message : ScanError → String
  | fewHexDigits wanted text => s!"expected {wanted} hex digits, got {quote text}"
  | badHexDigit digit text =>
    s!"invalid hex digit {quote (String.singleton digit)} in {quote text}"
  | fewOctalDigits text => s!"expected 3 octal digits, got {quote text}"
  | badOctalDigit digit text =>
    s!"invalid octal digit {quote (String.singleton digit)} in {quote text}"
  | notNumber value => s!"invalid number: {value.quoted}"
  | numberTooBig maximum text =>
    s!"number out of range (0-{markedHex 0 maximum}): {quote text}"
  | notBoolean text => s!"invalid boolean: {quote text}"
  | notAmong text table =>
    s!"invalid value {quote text}, expected one of: " ++ ", ".intercalate table
  | wideCharacter character =>
    s!"character {quote (String.singleton character)} does not fit in a byte"
  | badEscape offset text => s!"invalid escape sequence at offset {offset} in {quote text}"
  | notRange text => s!"invalid range: {quote text}"
  | reversedRange text => s!"range end smaller than start: {quote text}"
  | defect _ => "Unconvertible number"

/-- What a scan makes of a text, or else an error of the caller's. No scan takes a text with a
surrogate. -/
def Scan.converted {α β ε : Type} (scan : String → Except ScanError α) (text : CodeText)
    (ofDefect : Defect → ε) (error : ε) (put : α → β) : Except ε β :=
  match text.string?.map scan with
  | some (.ok value) => .ok (put value)
  | some (.error (.defect cause)) => .error (ofDefect cause)
  | _ => .error error

end MemoryBoard
