import MemoryBoard.Text.Utf8
import MemoryBoard.Yaml.Scalar
import MemoryBoard.Yaml.Token

set_option autoImplicit false

namespace MemoryBoard.Yaml.Property

open Reader Scalar

/-- The name of an anchor or alias, from its indicator on. -/
def anchorName : Reader (List Char) := do
  advance 1
  let name ← takeRun isWordChar
  if name = [] then fail
  let c ← peek 0
  if !(isBlankOrEnd c || ['?', ':', ',', ']', '}', '%', '@', '\x60'].contains c) then fail
  return name

/-- A tag handle: an exclamation mark alone, or two with a name between them. -/
def tagHandle : Reader (List Char) := do
  if (← peek 0) != '!' then fail
  if (← peek 1) == ' ' then
    advance 1
    return ['!']
  else
    let name := ((← get).rest.drop 1).takeWhile isWordChar
    if (← peek (name.length + 1)) != '!' then fail
    advance (name.length + 2)
    return '!' :: name ++ ['!']

def isUriChar (c : Char) : Bool :=
  isWordChar c ||
    [';', '/', '?', ':', '@', '&', '=', '+', '$', ',', '.', '!', '~', '*', '\x27', '(', ')', '[',
      ']'].contains c

/-- Takes bytes written as a percent sign and two hex digits, after `done`, latest first. Together
they have to be UTF-8. -/
def uriEscapes : Nat → Bytes → Reader (List Char)
  | 0, _ => fail
  | fuel + 1, done => do
    if (← peek 0) == '%' then
      advance 1
      let byte ← hexAhead 2
      advance 2
      uriEscapes fuel (UInt8.ofNat byte :: done)
    else match Text.decodeUtf8 done.reverse with
      | (text, none) => return text
      | (_, some _) => fail

/-- The parts of a tag, latest first. -/
def uriFrom : Nat → List (List Char) → Reader (List (List Char))
  | 0, _ => fail
  | fuel + 1, done => do
    let run ← takeRun isUriChar
    let done := if run = [] then done else run :: done
    if (← peek 0) == '%' then uriFrom fuel ((← uriEscapes fuel []) :: done)
    else return done

/-- The text of a tag, or of the beginning that a tag directive gives a handle. -/
def uri : Reader (List Char) := do
  let parts ← uriFrom (← rounds) []
  if parts = [] then fail
  return parts.reverse.flatten

/-- A tag, by its handle. A tag in angle brackets and one without a name have none. -/
def tag : Reader (Option (List Char)) := do
  let c ← peek 1
  let handle ← do
    if c == '<' then
      advance 2
      discard uri
      if (← peek 0) != '>' then fail
      advance 1
      pure none
    else if isBlankOrEnd c then
      advance 1
      pure none
    else
      let name := ((← get).rest.drop 1).takeWhile fun c => !isSpaceOrEnd c && c != '!'
      let handle ← do
        if (← peek (name.length + 1)) == '!' then tagHandle
        else
          advance 1
          pure ['!']
      discard uri
      pure (some handle)
  if !isSpaceOrEnd (← peek 0) then fail
  return handle

/-- The most digits of a number that are converted. -/
def digitLimit : Nat := 4300

/-- A decimal number. -/
def number : Reader Nat := do
  let digits ← takeRun Char.isDigit
  if digits = [] then fail
  if digitLimit < digits.length then throw (.defect .tooManyDigits)
  return Text.positional 10 digits

/-- The number before the point of a version. -/
def version : Reader Nat := do
  skipSpaces
  let major ← number
  if (← peek 0) != '.' then fail
  advance 1
  discard number
  if !isSpaceOrEnd (← peek 0) then fail
  return major

/-- The handle that a tag directive defines. -/
def tagDefinition : Reader (List Char) := do
  skipSpaces
  let handle ← tagHandle
  if (← peek 0) != ' ' then fail
  skipSpaces
  discard uri
  if !isSpaceOrEnd (← peek 0) then fail
  return handle

/-- A directive, from its percent sign to the end of its line. -/
def directive : Reader Directive := do
  advance 1
  let name ← takeRun isWordChar
  if name = [] then fail
  if !isSpaceOrEnd (← peek 0) then fail
  let result ← do
    if name = "YAML".toList then pure (.version (← version))
    else if name = "TAG".toList then pure (.tag (← tagDefinition))
    else
      discard (takeRun (!isBreakOrEnd ·))
      pure .other
  ignoredLine
  return result

end MemoryBoard.Yaml.Property
