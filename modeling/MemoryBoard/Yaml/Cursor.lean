import MemoryBoard.Text.Utf8

set_option autoImplicit false

/- A place in a YAML text and the steps forward from it. Text that comes from a file is loaded in
pieces; a piece that cannot be had stops the reader when it first looks past the ones before. -/
namespace MemoryBoard.Yaml

/-- What ends the reading of a text early. -/
inductive Fault where
  /-- The line does not fit the grammar. -/
  | malformed (line : Nat)
  /-- A character that may not stand in a text at all. -/
  | forbidden
  | defect (cause : Defect)
deriving DecidableEq, Repr

/-- Characters that may stand in a text. -/
def isAllowed (c : Char) : Bool :=
  let code := c.toNat
  code == 0x09 || code == 0x0a || code == 0x0d || (0x20 ≤ code && code ≤ 0x7e) || code == 0x85 ||
  (0xa0 ≤ code && code ≤ 0xd7ff) || (0xe000 ≤ code && code ≤ 0xfffd) ||
  (0x10000 ≤ code && code ≤ 0x10ffff)

/-- The text that can be had, and what lies behind it if not its end. -/
structure Source where
  text : List Char
  ending : Option Fault
deriving Repr

namespace Source

/-- A text that is there as a whole is checked as a whole. -/
def ofText (text : String) : Source :=
  if text.toList.all isAllowed then ⟨text.toList, none⟩ else ⟨[], some .forbidden⟩

/-- Characters loaded from a file at a time. -/
def loadSize : Nat := 4096

/-- The length of the longest front part made of whole loads in which every character is allowed.
The first load is twice as long. -/
def allowedFront (text : List Char) : Nat :=
  let good := (text.takeWhile isAllowed).length / loadSize
  if good < 2 then 0 else good * loadSize

/-- A file is loaded piece by piece, each checked when it comes. -/
def ofFile (bytes : Bytes) : Source :=
  let source := Text.Source.ofFileInLoads loadSize bytes
  let front := allowedFront source.text
  let loaded := source.text.take front
  let next := max (front + loadSize) (2 * loadSize)
  match source.defect with
  | none =>
    if source.text.all isAllowed then ⟨source.text, none⟩ else ⟨loaded, some .forbidden⟩
  | some cause =>
    if source.text.length < next then ⟨loaded, some (.defect cause)⟩
    else ⟨loaded, some .forbidden⟩

end Source

/-- The text ahead of a place, its index, line and column counted from zero. No loop takes more than
`size` characters. -/
structure Cursor where
  rest : List Char
  ending : Option Fault
  size : Nat
  index : Nat := 0
  line : Nat := 0
  column : Nat := 0
deriving Repr

def Source.cursor (source : Source) : Cursor where
  rest := source.text
  ending := source.ending
  size := source.text.length

/-- Stands for the end of the text. -/
def endMark : Char := '\x00'

def isBreak (c : Char) : Bool :=
  c == '\n' || c == '\r' || c == '\u0085' || c == '\u2028' || c == '\u2029'

def isBreakOrEnd (c : Char) : Bool :=
  c == endMark || isBreak c

/-- What may follow a directive, a tag or a header. -/
def isSpaceOrEnd (c : Char) : Bool :=
  c == ' ' || isBreakOrEnd c

/-- What may follow an indicator. -/
def isBlankOrEnd (c : Char) : Bool :=
  c == '\t' || isSpaceOrEnd c

/-- Characters of names. -/
def isWordChar (c : Char) : Bool :=
  c.isAlphanum || c == '-' || c == '_'

/-- One character on. A carriage return before a line feed does not end the line yet. -/
def Cursor.step (cursor : Cursor) : Cursor :=
  match cursor.rest with
  | [] => cursor
  | c :: rest =>
    if isBreak c && !(c == '\r' && rest.head? == some '\n') then
      { cursor with rest, index := cursor.index + 1, line := cursor.line + 1, column := 0 }
    else
      let width := if c == '\ufeff' then 0 else 1
      { cursor with rest, index := cursor.index + 1, column := cursor.column + width }

def Cursor.stepMany : Nat → Cursor → Cursor
  | 0, cursor => cursor
  | count + 1, cursor => stepMany count cursor.step

/-- A reader of characters, which may stop with a fault. -/
abbrev Reader := StateT Cursor (Except Fault)

namespace Reader

def fail {α : Type} : Reader α := do
  throw (.malformed (← get).line)

/-- Looks `count` characters ahead, which meets what lies behind the text. -/
def need (count : Nat) : Reader Unit := do
  let cursor ← get
  match cursor.ending with
  | none => return
  | some fault =>
    if 0 < count ∧ (cursor.rest.drop (count - 1)).isEmpty then throw fault

/-- The character at some distance, or the end mark. -/
def peek (distance : Nat) : Reader Char := do
  need (distance + 1)
  return (← get).rest.getD distance endMark

def ahead (count : Nat) : Reader (List Char) := do
  need count
  return (← get).rest.take count

def advance (count : Nat) : Reader Unit := do
  need (count + 1)
  modify (·.stepMany count)

/-- Takes the characters as long as `p` holds. -/
def takeRun (p : Char → Bool) : Reader (List Char) := do
  let run := (← get).rest.takeWhile p
  advance run.length
  return run

def skipSpaces : Reader Unit := do
  discard (takeRun (· == ' '))

/-- Takes the rest of the line if it is a comment. -/
def skipComment : Reader Unit := do
  if (← peek 0) == '#' then discard (takeRun (!isBreakOrEnd ·))

/-- Takes the end of a line, if there is one here. The two separators stay what they are; all other
ends become a line feed. -/
def lineBreak : Reader (Option Char) := do
  let c ← peek 0
  if c == '\u2028' || c == '\u2029' then
    advance 1
    return some c
  else if isBreak c then
    advance (if (← ahead 2) == ['\r', '\n'] then 2 else 1)
    return some '\n'
  else return none

/-- Whether a line that starts here separates documents. -/
def atSeparator : Reader Bool := do
  let mark ← ahead 3
  if mark == ['-', '-', '-'] || mark == ['.', '.', '.'] then return isBlankOrEnd (← peek 3)
  else return false

end Reader

end MemoryBoard.Yaml
