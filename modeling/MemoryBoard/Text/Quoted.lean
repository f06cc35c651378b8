import MemoryBoard.Text.CodeText
import MemoryBoard.Text.Printable

set_option autoImplicit false

namespace MemoryBoard.Text

/-- Single quotes, unless the text has one and no double quote. -/
def quoteMark (text : CodeText) : Char :=
  if text.contains (.char '\x27') && !text.contains (.char '\x22') then '\x22' else '\x27'

/-- A code point between quotes, as itself where `shown` says so. -/
def quotePoint (shown : Char → Bool) (mark : Char) : CodePoint → List Char
  | .char c =>
    if c = mark || c = '\x5c' then ['\x5c', c]
    else if c = '\n' then ['\x5c', 'n']
    else if c = '\r' then ['\x5c', 'r']
    else if c = '\t' then ['\x5c', 't']
    else if shown c then [c]
    else CodePoint.escape c.toNat
  | point => point.shown

def quotePoints (shown : Char → Bool) (text : CodeText) : String :=
  let mark := quoteMark text
  String.ofList (mark :: text.flatMap (quotePoint shown mark) ++ [mark])

def quote (text : CodeText) : String :=
  quotePoints isPrintable text

/-- Quoted with nothing but ASCII characters. -/
def quoteAscii (text : CodeText) : String :=
  quotePoints (fun c => ' ' ≤ c && c ≤ '~') text

end MemoryBoard.Text
