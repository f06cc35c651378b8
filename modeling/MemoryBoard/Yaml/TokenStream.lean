import MemoryBoard.Yaml.Property

set_option autoImplicit false

/- The tokens of a text in order. Whether a node is the key of a mapping shows only at the colon
behind it, so tokens wait until no key can still be put in front of them. -/
namespace MemoryBoard.Yaml

/-- The first token of a node that may turn out to be a key, and where it stands. -/
structure KeyCandidate where
  flowLevel : Nat
  /-- How many tokens come before the node. -/
  number : Nat
  /-- In a block mapping nothing but a key can stand here. -/
  required : Bool
  index : Nat
  line : Nat
  column : Nat
deriving Repr

structure Scanner where
  cursor : Cursor
  /-- Tokens waiting to be handed on. -/
  waiting : List Token
  /-- How many tokens have been handed on. -/
  taken : Nat
  ended : Bool
  /-- How many flow collections are open. -/
  flowLevel : Nat
  /-- The column of the innermost block collection, before any the one left of the first column. -/
  indent : Int
  /-- The columns of the collections around it. -/
  outerIndents : List Int
  /-- Whether a key may begin at the next token. -/
  keyAllowed : Bool
  candidates : List KeyCandidate
deriving Repr

namespace Scanner

def start (source : Source) : Scanner where
  cursor := source.cursor
  waiting := [⟨.streamStart, 0⟩]
  taken := 0
  ended := false
  flowLevel := 0
  indent := -1
  outerIndents := []
  keyAllowed := true
  candidates := []

/-- A step of the scanner. -/
abbrev Scan := StateT Scanner (Except Fault)

/-- Runs a reader at the scanner's place. -/
def reading {α : Type} (reader : Reader α) : Scan α := do
  let scanner ← get
  let (result, cursor) ← reader.run scanner.cursor
  set { scanner with cursor }
  return result

def fail {α : Type} : Scan α :=
  reading Reader.fail

def inFlow : Scan Bool :=
  return 0 < (← get).flowLevel

def push (kind : TokenKind) (line : Nat) : Scan Unit :=
  modify fun scanner => { scanner with waiting := scanner.waiting ++ [⟨kind, line⟩] }

/-- Adds a token at the current place. -/
def pushHere (kind : TokenKind) : Scan Unit := do
  push kind (← get).cursor.line

/-- Adds a token made of the next characters. -/
def take (kind : TokenKind) (length : Nat) : Scan Unit := do
  let line := (← get).cursor.line
  reading (Reader.advance length)
  push kind line

def allowKey (allowed : Bool) : Scan Unit :=
  modify fun scanner => { scanner with keyAllowed := allowed }

/-- A key stays on one line and within 1024 characters. -/
def KeyCandidate.isStale (candidate : KeyCandidate) (cursor : Cursor) : Bool :=
  candidate.line != cursor.line || 1024 < cursor.index - candidate.index

/-- Gives up the candidates for which it is too late. -/
def dropStale : Scan Unit := do
  let scanner ← get
  let (stale, left) := scanner.candidates.partition (KeyCandidate.isStale · scanner.cursor)
  if stale.any (·.required) then fail
  set { scanner with candidates := left }

/-- Gives up the candidate of the current flow level. -/
def dropCandidate : Scan Unit := do
  let scanner ← get
  let (dropped, left) := scanner.candidates.partition (·.flowLevel == scanner.flowLevel)
  if dropped.any (·.required) then fail
  set { scanner with candidates := left }

/-- Remembers that a key may begin here. -/
def noteCandidate : Scan Unit := do
  if (← get).keyAllowed then
    dropCandidate
    let scanner ← get
    let cursor := scanner.cursor
    let candidate : KeyCandidate := {
      flowLevel := scanner.flowLevel
      number := scanner.taken + scanner.waiting.length
      required := scanner.flowLevel = 0 && scanner.indent = cursor.column
      index := cursor.index
      line := cursor.line
      column := cursor.column }
    set { scanner with candidates := candidate :: scanner.candidates }

/-- Closes block collections down to a column; each round closes one. -/
def unwindFrom (column : Int) : Nat → Scan Unit
  | 0 => return
  | fuel + 1 => do
    let scanner ← get
    if column < scanner.indent then
      let waiting := scanner.waiting ++ [⟨.blockEnd, scanner.cursor.line⟩]
      let indent := scanner.outerIndents.headD (-1)
      set { scanner with waiting, indent, outerIndents := scanner.outerIndents.tail }
      unwindFrom column fuel

/-- Closes the block collections that do not reach to a column. Inside flow collections the columns
do not count. -/
def unwind (column : Int) : Scan Unit := do
  let scanner ← get
  if scanner.flowLevel = 0 then unwindFrom column (scanner.outerIndents.length + 1)

/-- Opens a block collection at a column, unless that is no deeper than the current one. -/
def deepen (column : Nat) : Scan Bool := do
  let scanner ← get
  if scanner.indent < column then
    set { scanner with
      indent := column
      outerIndents := scanner.indent :: scanner.outerIndents }
    return true
  else return false

/-- Opens a block collection here for an indicator outside flow collections, where a key could begin
too. -/
def openBlock (kind : TokenKind) : Scan Unit := do
  let scanner ← get
  if scanner.flowLevel = 0 then
    if !scanner.keyAllowed then fail
    if ← deepen scanner.cursor.column then pushHere kind

def fetchStreamEnd : Scan Unit := do
  unwind (-1)
  dropCandidate
  modify fun scanner => { scanner with keyAllowed := false, candidates := [], ended := true }
  pushHere .streamEnd

def fetchDirective : Scan Unit := do
  unwind (-1)
  dropCandidate
  allowKey false
  let line := (← get).cursor.line
  push (.directive (← reading Property.directive)) line

def fetchDocumentMark (kind : TokenKind) : Scan Unit := do
  unwind (-1)
  dropCandidate
  allowKey false
  take kind 3

def fetchFlowStart (kind : TokenKind) : Scan Unit := do
  noteCandidate
  modify fun scanner => { scanner with flowLevel := scanner.flowLevel + 1, keyAllowed := true }
  take kind 1

def fetchFlowEnd (kind : TokenKind) : Scan Unit := do
  dropCandidate
  modify fun scanner => { scanner with flowLevel := scanner.flowLevel - 1, keyAllowed := false }
  take kind 1

def fetchFlowEntry : Scan Unit := do
  allowKey true
  dropCandidate
  take .flowEntry 1

def fetchBlockEntry : Scan Unit := do
  openBlock .blockSequenceStart
  allowKey true
  dropCandidate
  take .blockEntry 1

def fetchKey : Scan Unit := do
  openBlock .blockMappingStart
  allowKey (!(← inFlow))
  dropCandidate
  take .key 1

/-- A colon makes the candidate of its level a key. Without one it belongs to a key that was marked
as such, or to none. -/
def fetchValue : Scan Unit := do
  let scanner ← get
  match scanner.candidates.find? (·.flowLevel == scanner.flowLevel) with
  | some candidate =>
    let place := candidate.number - scanner.taken
    let candidates := scanner.candidates.filter (·.flowLevel != scanner.flowLevel)
    set { scanner with
      candidates
      waiting := scanner.waiting.insertIdx place ⟨.key, candidate.line⟩ }
    if scanner.flowLevel = 0 then
      if ← deepen candidate.column then
        modify fun scanner =>
          let mark : Token := ⟨.blockMappingStart, candidate.line⟩
          { scanner with waiting := scanner.waiting.insertIdx place mark }
    allowKey false
  | none =>
    openBlock .blockMappingStart
    allowKey (!(← inFlow))
    dropCandidate
  take .value 1

/-- A node of one token. A key may begin with it, but not right behind it. -/
def fetchNode (kind : Reader TokenKind) : Scan Unit := do
  noteCandidate
  allowKey false
  let line := (← get).cursor.line
  push (← reading kind) line

def fetchPlain : Scan Unit := do
  noteCandidate
  let scanner ← get
  let flow ← inFlow
  let (text, lineEnded) ← reading (Scalar.plain flow (scanner.indent + 1))
  allowKey lineEnded
  push (.scalar (text.map .char)) scanner.cursor.line

def fetchBlockScalar (folded : Bool) : Scan Unit := do
  allowKey true
  dropCandidate
  let scanner ← get
  let text ← reading (Scalar.block folded scanner.indent)
  push (.scalar (text.map .char)) scanner.cursor.line

/-- Takes space, comments and line ends in front of a token. Outside flow collections a key may
begin on a new line. -/
def skipToToken : Nat → Scan Unit
  | 0 => fail
  | fuel + 1 => do
    reading Reader.skipSpaces
    reading Reader.skipComment
    match ← reading Reader.lineBreak with
    | none => return
    | some _ =>
      if !(← inFlow) then allowKey true
      skipToToken fuel

/-- A byte order mark at the very beginning is passed over. -/
def skipByteOrderMark : Scan Unit := do
  if (← get).cursor.index = 0 then
    if (← reading (Reader.peek 0)) == '\ufeff' then reading (Reader.advance 1)

/-- Whether three of one character begin a line here and nothing is joined to them. -/
def atDocumentMark (c : Char) : Scan Bool := do
  if (← get).cursor.column = 0 then
    reading do
      if (← Reader.ahead 3) == [c, c, c] then return isBlankOrEnd (← Reader.peek 3)
      else return false
  else return false

/-- Characters that begin something else than a plain scalar. -/
def isIndicator (c : Char) : Bool :=
  ['-', '?', ':', ',', '[', ']', '{', '}', '#', '&', '*', '!', '|', '>', '\x27', '\x22', '%', '@',
    '\x60'].contains c

/-- Whether a plain scalar begins with `c`. -/
def startsPlain (c : Char) : Scan Bool := do
  if !isBlankOrEnd c && !isIndicator c then return true
  else if isBlankOrEnd (← reading (Reader.peek 1)) then return false
  else return c == '-' || (!(← inFlow) && (c == '?' || c == ':'))

/-- Whether an indicator stands alone here, as it has to outside flow collections. -/
def standsAlone : Scan Bool :=
  return isBlankOrEnd (← reading (Reader.peek 1))

/-- Takes the token that begins with `c`, the character here. -/
def fetchToken (c : Char) : Scan Unit := do
  let flow ← inFlow
  if c == endMark then fetchStreamEnd
  else if c == '%' && (← get).cursor.column = 0 then fetchDirective
  else if ← (do if c == '-' then atDocumentMark '-' else return false) then
    fetchDocumentMark .documentStart
  else if ← (do if c == '.' then atDocumentMark '.' else return false) then
    fetchDocumentMark .documentEnd
  else if c == '[' then fetchFlowStart .flowSequenceStart
  else if c == '{' then fetchFlowStart .flowMappingStart
  else if c == ']' then fetchFlowEnd .flowSequenceEnd
  else if c == '}' then fetchFlowEnd .flowMappingEnd
  else if c == ',' then fetchFlowEntry
  else if ← (do if c == '-' then standsAlone else return false) then fetchBlockEntry
  else if ← (do if c == '?' then return flow || (← standsAlone) else return false) then fetchKey
  else if ← (do if c == ':' then return flow || (← standsAlone) else return false) then fetchValue
  else if c == '*' then fetchNode (do discard Property.anchorName; return .aliasNode)
  else if c == '&' then fetchNode (do discard Property.anchorName; return .anchor)
  else if c == '!' then fetchNode (return .tag (← Property.tag))
  else if c == '|' && !flow then fetchBlockScalar false
  else if c == '>' && !flow then fetchBlockScalar true
  else if c == '\x27' then fetchNode (return .scalar (← Scalar.quoted false))
  else if c == '\x22' then fetchNode (return .scalar (← Scalar.quoted true))
  else if ← startsPlain c then fetchPlain
  else fail

/-- Takes the next token, and the ends of blocks in front of it. -/
def fetch : Scan Unit := do
  skipByteOrderMark
  skipToToken (← reading Scalar.rounds)
  dropStale
  unwind (← get).cursor.column
  fetchToken (← reading (Reader.peek 0))

/-- Whether the first waiting token, if there is one, may still get a key in front of it. -/
def needsMore : Scan Bool := do
  let scanner ← get
  if scanner.ended then return false
  else if scanner.waiting.isEmpty then return true
  else
    dropStale
    return ((← get).candidates.map (·.number)).min? == some scanner.taken

/-- Hands on token after token, as far as each can be had. -/
def tokensFrom : Nat → Scanner → List Token → List Token × Option Fault
  | 0, scanner, done => (done.reverse, some (.malformed scanner.cursor.line))
  | fuel + 1, scanner, done =>
    match needsMore.run scanner with
    | .error fault => (done.reverse, some fault)
    | .ok (true, scanner) =>
      match fetch.run scanner with
      | .error fault => (done.reverse, some fault)
      | .ok (_, scanner) => tokensFrom fuel scanner done
    | .ok (false, scanner) =>
      match scanner.waiting with
      | [] => (done.reverse, none)
      | token :: waiting =>
        tokensFrom fuel { scanner with waiting, taken := scanner.taken + 1 } (token :: done)

end Scanner

/-- The tokens of a text, up to the first that cannot be had, and what stands in its way. -/
def Source.tokens (source : Source) : List Token × Option Fault :=
  let scanner := Scanner.start source
  match (Reader.need 1).run scanner.cursor with
  | .error fault => ([], some fault)
  | .ok _ => scanner.tokensFrom (8 * (source.text.length + 4)) []

end MemoryBoard.Yaml
