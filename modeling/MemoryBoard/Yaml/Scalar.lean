import MemoryBoard.Text.CodeText
import MemoryBoard.Yaml.Cursor

set_option autoImplicit false

namespace MemoryBoard.Yaml.Scalar

open Reader Text

/-- How often a loop that takes at least one character each time can go round. -/
def rounds : Reader Nat :=
  return (← get).size + 1

/-- The text for a line break and the ones after it: a single break becomes a space, and more of
them lose one. -/
def fold (first : Char) (others : List Char) : List Char :=
  if first ≠ '\n' then first :: others
  else if others = [] then [' ']
  else others

/-- Whether a plain scalar ends before `c`, which `next` follows. -/
def endsPlain (flow : Bool) (c next : Char) : Bool :=
  isBlankOrEnd c ||
  (c == ':' && (isBlankOrEnd next || (flow && [',', '[', ']', '{', '}'].contains next))) ||
  (flow && [',', '?', '[', ']', '{', '}'].contains c)

/-- The characters up to the end of the scalar or the next blank, after `done`, latest first. -/
def plainRun (flow : Bool) (done : List Char) : List Char → List Char
  | [] => done.reverse
  | c :: rest =>
    if endsPlain flow c (rest.headD endMark) then done.reverse else plainRun flow (c :: done) rest

/-- Line breaks and spaces between two lines of a plain scalar. Nothing if a document ends there. -/
def plainBreaks : Nat → List Char → Reader (Option (List Char))
  | 0, _ => fail
  | fuel + 1, done => do
    if (← peek 0) == ' ' then
      advance 1
      plainBreaks fuel done
    else match ← lineBreak with
      | none => return some done.reverse
      | some c =>
        if ← atSeparator then return none else plainBreaks fuel (c :: done)

/-- Space after a part of a plain scalar, as it counts if the scalar goes on, and whether a line
ended in it. -/
def plainSpace (fuel : Nat) : Reader (List Char × Bool) := do
  let blanks ← takeRun (· == ' ')
  match ← lineBreak with
  | none => return (blanks, false)
  | some first =>
    if ← atSeparator then return ([], true)
    match ← plainBreaks fuel [] with
    | none => return ([], true)
    | some others => return (fold first others, true)

/-- The parts of a plain scalar, latest first, and whether it ends at the beginning of a line.
`space` comes before the next part. -/
def plainFrom (flow : Bool) (indent : Int) :
    Nat → List (List Char) → List Char → Bool → Reader (List (List Char) × Bool)
  | 0, _, _, _ => fail
  | fuel + 1, done, space, lineEnded => do
    if (← peek 0) == '#' then return (done, lineEnded)
    let run := plainRun flow [] (← get).rest
    if (← peek run.length) == ':' then need (run.length + 2)
    if run = [] then return (done, lineEnded)
    advance run.length
    let done := run :: space :: done
    let (space, lineEnded) ← plainSpace fuel
    if space = [] then return (done, lineEnded)
    if (← peek 0) == '#' then return (done, lineEnded)
    if !flow && (← get).column < indent then return (done, lineEnded)
    plainFrom flow indent fuel done space lineEnded

/-- The text of a plain scalar and whether it ends at the beginning of a line. -/
def plain (flow : Bool) (indent : Int) : Reader (List Char × Bool) := do
  let (parts, lineEnded) ← plainFrom flow indent (← rounds) [] [] false
  return (parts.reverse.flatten, lineEnded)

/-- The character for an escape of one letter. -/
def simpleEscape? (c : Char) : Option Char :=
  match c with
  | '0' => some '\x00'
  | 'a' => some '\x07'
  | 'b' => some '\x08'
  | 't' => some '\t'
  | '\t' => some '\t'
  | 'n' => some '\n'
  | 'v' => some '\x0b'
  | 'f' => some '\x0c'
  | 'r' => some '\r'
  | 'e' => some '\x1b'
  | ' ' => some ' '
  | '\x22' => some '\x22'
  | '/' => some '/'
  | '\x5c' => some '\x5c'
  | 'N' => some '\u0085'
  | '_' => some '\u00a0'
  | 'L' => some '\u2028'
  | 'P' => some '\u2029'
  | _ => none

/-- How many hex digits follow the letter of an escape. -/
def escapeDigits? (c : Char) : Option Nat :=
  match c with
  | 'x' => some 2
  | 'u' => some 4
  | 'U' => some 8
  | _ => none

/-- The hex digits from here on, all `count` of them, left in place. -/
def hexAhead (count : Nat) : Reader Nat := do
  let digits := ((← get).rest.take count).takeWhile Text.isHexDigit
  need (min count (digits.length + 1))
  if digits.length < count then fail
  return Text.positional 16 digits

/-- The code point of an escape, which may be a surrogate. -/
def codePointOf (code : Nat) : Except Fault CodePoint :=
  match CodePoint.ofNat? code with
  | some point => .ok point
  | none =>
    if code < 0x80000000 then .error (.defect .beyondCodePoints)
    else .error (.defect .overflow)

/-- Line breaks and blanks between two lines in quotes. No document may end there. -/
def quotedBreaks : Nat → List Char → Reader (List Char)
  | 0, _ => fail
  | fuel + 1, done => do
    if ← atSeparator then fail
    discard (takeRun fun c => c == ' ' || c == '\t')
    match ← lineBreak with
    | none => return done.reverse
    | some c => quotedBreaks fuel (c :: done)

/-- The text of an escape, whose backslash has been taken. -/
def quotedEscape (fuel : Nat) : Reader CodeText := do
  let c ← peek 0
  match simpleEscape? c, escapeDigits? c with
  | some meant, _ =>
    advance 1
    return [.char meant]
  | none, some count =>
    advance 1
    let meant ← codePointOf (← hexAhead count)
    advance count
    return [meant]
  | none, none =>
    match ← lineBreak with
    | some _ => return (← quotedBreaks fuel []).map .char
    | none => fail

/-- Takes characters up to the closing quote or a blank, adding parts to `done`, latest first. -/
def quotedRun (double : Bool) : Nat → List CodeText → Reader (List CodeText)
  | 0, _ => fail
  | fuel + 1, done => do
    let run ← takeRun fun c =>
      !(c == '\x27' || c == '\x22' || c == '\x5c' || isBlankOrEnd c)
    let done := run.map .char :: done
    let c ← peek 0
    if !double && c == '\x27' then
      if (← peek 1) == '\x27' then
        advance 2
        quotedRun double fuel ([.char '\x27'] :: done)
      else return done
    else if (double && c == '\x27') || (!double && (c == '\x22' || c == '\x5c')) then
      advance 1
      quotedRun double fuel ([.char c] :: done)
    else if double && c == '\x5c' then
      advance 1
      quotedRun double fuel ((← quotedEscape fuel) :: done)
    else return done

/-- Takes blanks and line breaks in quotes. -/
def quotedSpace (fuel : Nat) : Reader (List Char) := do
  let blanks ← takeRun fun c => c == ' ' || c == '\t'
  if (← peek 0) == endMark then fail
  match ← lineBreak with
  | none => return blanks
  | some first => return fold first (← quotedBreaks fuel [])

/-- Goes on up to the closing quote and takes it. -/
def quotedFrom (double : Bool) : Nat → List CodeText → Reader (List CodeText)
  | 0, _ => fail
  | fuel + 1, done => do
    if (← peek 0) == (if double then '\x22' else '\x27') then
      advance 1
      return done
    else
      let space ← quotedSpace fuel
      quotedFrom double fuel (← quotedRun double fuel (space.map .char :: done))

/-- The text of a scalar in quotes, from the opening one on. -/
def quoted (double : Bool) : Reader CodeText := do
  advance 1
  let fuel ← rounds
  let parts ← quotedFrom double fuel (← quotedRun double fuel [])
  return parts.reverse.flatten

/-- What becomes of the line breaks at the end of a block scalar. -/
inductive Chomping where
  | strip
  | clip
  | keep
deriving DecidableEq, Repr

def chomping? (c : Char) : Option Chomping :=
  match c with
  | '+' => some .keep
  | '-' => some .strip
  | _ => none

/-- Takes a chomping indicator, if there is one. -/
def chompingIndicator : Reader (Option Chomping) := do
  let found := chomping? (← peek 0)
  if found.isSome then advance 1
  return found

/-- Takes an indentation indicator, if there is one. It must not be zero. -/
def indentIndicator : Reader (Option Nat) := do
  let c ← peek 0
  if c == '0' then fail
  else if c.isDigit then
    advance 1
    return some (c.toNat - 48)
  else return none

/-- The indicators after the first character, in either order. -/
def blockHeader : Reader (Chomping × Option Nat) := do
  let (chomping, increment) ← do
    match ← chompingIndicator with
    | some chomping => pure (chomping, ← indentIndicator)
    | none =>
      match ← indentIndicator with
      | none => pure (.clip, none)
      | some increment => pure ((← chompingIndicator).getD .clip, some increment)
  if !isSpaceOrEnd (← peek 0) then fail
  return (chomping, increment)

/-- The rest of a line that holds nothing more than a comment. -/
def ignoredLine : Reader Unit := do
  skipSpaces
  skipComment
  if !isBreakOrEnd (← peek 0) then fail
  discard lineBreak

/-- Empty lines in front of a block scalar, and the largest indentation seen in them. -/
def leadingBreaks : Nat → List Char → Nat → Reader (List Char × Nat)
  | 0, _, _ => fail
  | fuel + 1, done, widest => do
    if (← peek 0) == ' ' then
      advance 1
      leadingBreaks fuel done (max widest (← get).column)
    else match ← lineBreak with
      | none => return (done.reverse, widest)
      | some c => leadingBreaks fuel (c :: done) widest

/-- Takes spaces up to a column. -/
def skipIndent (indent : Nat) : Reader Unit := do
  let cursor ← get
  let spaces := ((cursor.rest.take (indent - cursor.column)).takeWhile (· == ' ')).length
  if cursor.column < indent then need (min (indent - cursor.column) (spaces + 1))
  if 0 < spaces then advance spaces

/-- Empty lines between two lines of a block scalar. -/
def blockBreaks (indent : Nat) : Nat → List Char → Reader (List Char)
  | 0, _ => fail
  | fuel + 1, done => do
    skipIndent indent
    match ← lineBreak with
    | none => return done.reverse
    | some c => blockBreaks indent fuel (c :: done)

/-- Whether a line of a block scalar starts here. -/
def atBlockLine (indent : Nat) : Reader Bool := do
  if (← get).column = indent then return (← peek 0) != endMark else return false

/-- The parts of a block scalar, latest first, with the break and the empty lines after them. -/
def blockLines (folded : Bool) (indent : Nat) :
    Nat → List (List Char) → List Char → Reader (List (List Char) × List Char × List Char)
  | 0, _, _ => fail
  | fuel + 1, done, breaks => do
    let blankStart := [' ', '\t'].contains (← peek 0)
    let run ← takeRun (!isBreakOrEnd ·)
    let done := run :: breaks :: done
    let ended := (← lineBreak).toList
    let breaks ← blockBreaks indent fuel []
    if ← atBlockLine indent then
      let joined := folded && ended == ['\n'] && !blankStart &&
        !([' ', '\t'].contains (← peek 0))
      let between := if joined then (if breaks = [] then [' '] else []) else ended
      blockLines folded indent fuel (between :: done) breaks
    else return (done, ended, breaks)

/-- The text of a block scalar, from its indicator on, inside a block indented by `parent`. -/
def block (folded : Bool) (parent : Int) : Reader (List Char) := do
  advance 1
  let (chomping, increment) ← blockHeader
  ignoredLine
  let fuel ← rounds
  let least := (max (parent + 1) 1).toNat
  let (breaks, indent) ← do
    match increment with
    | none =>
      let (breaks, widest) ← leadingBreaks fuel [] 0
      pure (breaks, max least widest)
    | some increment =>
      let indent := least + increment - 1
      pure (← blockBreaks indent fuel [], indent)
  let (parts, ended, breaks) ← do
    if ← atBlockLine indent then blockLines folded indent fuel [] breaks
    else pure ([], [], breaks)
  let text := parts.reverse.flatten
  return match chomping with
    | .strip => text
    | .clip => text ++ ended
    | .keep => text ++ ended ++ breaks

end MemoryBoard.Yaml.Scalar
