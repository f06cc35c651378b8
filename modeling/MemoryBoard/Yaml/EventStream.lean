import MemoryBoard.Yaml.Event
import MemoryBoard.Yaml.TokenStream

set_option autoImplicit false

namespace MemoryBoard.Yaml

/-- What is read next. -/
inductive Phase where
  | streamStart
  | firstDocument
  | documentStart
  | documentContent
  | documentEnd
  | blockNode
  | blockSequenceFirst
  | blockSequenceEntry
  /-- Entries of a sequence that stands no deeper than the key it belongs to. -/
  | levelSequenceEntry
  | blockMappingFirst
  | blockMappingKey
  | blockMappingValue
  | flowSequenceFirst
  | flowSequenceEntry
  /-- A pair that stands as an entry of a sequence is a mapping of its own. -/
  | pairKey
  | pairValue
  | pairEnd
  | flowMappingFirst
  | flowMappingKey
  | flowMappingValue
  | flowMappingLoneKey
deriving DecidableEq, Repr

structure Parser where
  /-- The tokens ahead. -/
  tokens : List Token
  /-- What stands behind them. -/
  ending : Option Fault
  phase : Option Phase
  /-- What is read when the present node is complete. -/
  stack : List Phase
  /-- The tag handles of the document. -/
  handles : List (List Char)
deriving Repr

namespace Parser

abbrev Step := StateT Parser (Except Fault)

def fail {α : Type} : Step α := do
  throw (.malformed (((← get).tokens.head?.map (·.line)).getD 0))

def peek : Step Token := do
  let parser ← get
  match parser.tokens with
  | token :: _ => return token
  | [] => throw (parser.ending.getD (.malformed 0))

def take : Step Token := do
  let token ← peek
  modify fun parser => { parser with tokens := parser.tokens.tail }
  return token

def nextIs (kinds : List TokenKind) : Step Bool :=
  return kinds.contains (← peek).kind

def goTo (phase : Phase) : Step Unit :=
  modify fun parser => { parser with phase := some phase }

def comeBackTo (phase : Phase) : Step Unit :=
  modify fun parser => { parser with stack := phase :: parser.stack }

/-- Goes on with what the present node is part of. -/
def resume : Step Unit :=
  modify fun parser => { parser with phase := parser.stack.head?, stack := parser.stack.tail }

def event (kind : EventKind) (line : Nat) : Event :=
  ⟨kind, none, some (line + 1)⟩

def scalar (text : Text.CodeText) (line : Nat) : Event :=
  ⟨.scalar, some text, some (line + 1)⟩

/-- A node that is not there. -/
def emptyScalar (line : Nat) : Event :=
  scalar [] line

/-- The tag handles every document has. -/
def standardHandles : List (List Char) :=
  [['!'], ['!', '!']]

/-- The handles that directives define, on top of the ones before. A version is given once at most
and a handle too. -/
def handlesOf? (versionSeen : Bool) (handles : List (List Char)) :
    List Directive → Option (List (List Char))
  | [] => some handles
  | .version major :: rest =>
    if versionSeen || major != 1 then none else handlesOf? true handles rest
  | .tag handle :: rest =>
    if handles.contains handle then none else handlesOf? versionSeen (handle :: handles) rest
  | .other :: rest => handlesOf? versionSeen handles rest

/-- Takes the directives of a document and gives the handles they define. -/
def takeDirectives : Step (List (List Char)) := do
  let tokens := (← get).tokens
  let directives := (tokens.takeWhile (·.directive?.isSome)).filterMap Token.directive?
  match handlesOf? false [] directives with
  | none => fail
  | some handles =>
    modify fun parser => { parser with tokens := tokens.dropWhile (·.directive?.isSome) }
    return handles

def skipDocumentEnds : Step Unit :=
  modify fun parser =>
    { parser with tokens := parser.tokens.dropWhile (·.kind == .documentEnd) }

def documentStart : Step Event := do
  skipDocumentEnds
  let first ← peek
  if first.kind = .streamEnd then
    discard take
    modify fun parser => { parser with phase := none }
    return event .streamEnd first.line
  else
    let handles ← takeDirectives
    if !(← nextIs [.documentStart]) then fail
    discard take
    modify fun parser => { parser with handles := handles ++ standardHandles }
    comeBackTo .documentEnd
    goTo .documentContent
    return event .documentStart first.line

/-- The first document needs no mark and no directives. -/
def firstDocument : Step Event := do
  let first ← peek
  match first.kind with
  | .directive _ => documentStart
  | .documentStart => documentStart
  | .streamEnd => documentStart
  | _ =>
    modify fun parser => { parser with handles := standardHandles }
    comeBackTo .documentEnd
    goTo .blockNode
    return event .documentStart first.line

def documentEnd : Step Event := do
  let next ← peek
  if next.kind = .documentEnd then discard take
  goTo .documentStart
  return event .documentEnd next.line

def takeAnchor : Step Bool := do
  if ← nextIs [.anchor] then
    discard take
    return true
  else return false

/-- Takes a tag, if there is one, and gives its handle. -/
def takeTag : Step (Option (Option (List Char))) := do
  match (← peek).kind with
  | .tag handle =>
    discard take
    return some handle
  | _ => return none

/-- Refuses a handle that the document does not have. -/
def checkHandle (handle : Option (List Char)) : Step Unit := do
  match handle with
  | none => return
  | some handle => if !(← get).handles.contains handle then fail

/-- Takes the anchor and the tag of a node, in either order. -/
def takeProperties : Step Bool := do
  if ← takeAnchor then
    match ← takeTag with
    | none => return true
    | some handle =>
      checkHandle handle
      return true
  else match ← takeTag with
    | none => return false
    | some handle =>
      discard takeAnchor
      checkHandle handle
      return true

/-- A node. Block collections open only where `block` allows them. -/
def node (block levelSequence : Bool) : Step Event := do
  let first ← peek
  if first.kind = .aliasNode then
    discard take
    resume
    return event .aliasNode first.line
  else
    let described ← takeProperties
    let next ← peek
    match next.kind with
    | .blockEntry =>
      if levelSequence then
        goTo .levelSequenceEntry
        return event .sequenceStart first.line
      else bare described first
    | .scalar text =>
      discard take
      resume
      return scalar text first.line
    | .flowSequenceStart =>
      goTo .flowSequenceFirst
      return event .sequenceStart first.line
    | .flowMappingStart =>
      goTo .flowMappingFirst
      return event .mappingStart first.line
    | .blockSequenceStart =>
      if block then
        goTo .blockSequenceFirst
        return event .sequenceStart first.line
      else bare described first
    | .blockMappingStart =>
      if block then
        goTo .blockMappingFirst
        return event .mappingStart first.line
      else bare described first
    | _ => bare described first
where
  /-- Only a node with an anchor or a tag may have no content. -/
  bare (described : Bool) (first : Token) : Step Event := do
    if described then
      resume
      return emptyScalar first.line
    else fail

def documentContent : Step Event := do
  let next ← peek
  match next.kind with
  | .directive _ => absent next
  | .documentStart => absent next
  | .documentEnd => absent next
  | .streamEnd => absent next
  | _ => node true false
where
  absent (next : Token) : Step Event := do
    resume
    return emptyScalar next.line

/-- A node after its indicator, unless one of some tokens shows that it is not there. -/
def nodeUnless (stops : List TokenKind) (indicator : Token) (after : Phase) (node : Step Event) :
    Step Event := do
  if ← nextIs stops then
    goTo after
    return emptyScalar indicator.line
  else
    comeBackTo after
    node

/-- The end of a collection. -/
def close (kind : EventKind) : Step Event := do
  let token ← take
  resume
  return event kind token.line

def blockSequenceEntry : Step Event := do
  if ← nextIs [.blockEntry] then
    let indicator ← take
    nodeUnless [.blockEntry, .blockEnd] indicator .blockSequenceEntry (node true false)
  else if ← nextIs [.blockEnd] then close .sequenceEnd
  else fail

def levelSequenceEntry : Step Event := do
  if ← nextIs [.blockEntry] then
    let indicator ← take
    nodeUnless [.blockEntry, .key, .value, .blockEnd] indicator .levelSequenceEntry
      (node true false)
  else
    let next ← peek
    resume
    return event .sequenceEnd next.line

def blockMappingKey : Step Event := do
  if ← nextIs [.key] then
    let indicator ← take
    nodeUnless [.key, .value, .blockEnd] indicator .blockMappingValue (node true true)
  else if ← nextIs [.blockEnd] then close .mappingEnd
  else fail

/-- A value behind its colon, or nothing where there is no colon. -/
def valueOr (stops : List TokenKind) (after : Phase) (node : Step Event) : Step Event := do
  let next ← peek
  if next.kind = .value then
    discard take
    nodeUnless stops next after node
  else
    goTo after
    return emptyScalar next.line

/-- Takes the comma in front of every entry but the first. -/
def takeComma (first : Bool) : Step Unit := do
  if !first then
    if ← nextIs [.flowEntry] then discard take else fail

def flowSequenceEntry (first : Bool) : Step Event := do
  if ← nextIs [.flowSequenceEnd] then close .sequenceEnd
  else
    takeComma first
    let next ← peek
    if next.kind = .key then
      goTo .pairKey
      return event .mappingStart next.line
    else if next.kind = .flowSequenceEnd then close .sequenceEnd
    else
      comeBackTo .flowSequenceEntry
      node false false

def pairKey : Step Event := do
  let indicator ← take
  nodeUnless [.value, .flowEntry, .flowSequenceEnd] indicator .pairValue (node false false)

def pairEnd : Step Event := do
  let next ← peek
  goTo .flowSequenceEntry
  return event .mappingEnd next.line

def flowMappingKey (first : Bool) : Step Event := do
  if ← nextIs [.flowMappingEnd] then close .mappingEnd
  else
    takeComma first
    if ← nextIs [.key] then
      let indicator ← take
      nodeUnless [.value, .flowEntry, .flowMappingEnd] indicator .flowMappingValue
        (node false false)
    else if ← nextIs [.flowMappingEnd] then close .mappingEnd
    else
      comeBackTo .flowMappingLoneKey
      node false false

/-- The event of a phase. -/
def step (phase : Phase) : Step Event := do
  match phase with
  | .streamStart =>
    let token ← take
    goTo .firstDocument
    return event .streamStart token.line
  | .firstDocument => firstDocument
  | .documentStart => documentStart
  | .documentContent => documentContent
  | .documentEnd => documentEnd
  | .blockNode => node true false
  | .blockSequenceFirst => discard take; blockSequenceEntry
  | .blockSequenceEntry => blockSequenceEntry
  | .levelSequenceEntry => levelSequenceEntry
  | .blockMappingFirst => discard take; blockMappingKey
  | .blockMappingKey => blockMappingKey
  | .blockMappingValue =>
    valueOr [.key, .value, .blockEnd] .blockMappingKey (node true true)
  | .flowSequenceFirst => discard take; flowSequenceEntry true
  | .flowSequenceEntry => flowSequenceEntry false
  | .pairKey => pairKey
  | .pairValue => valueOr [.flowEntry, .flowSequenceEnd] .pairEnd (node false false)
  | .pairEnd => pairEnd
  | .flowMappingFirst => discard take; flowMappingKey true
  | .flowMappingKey => flowMappingKey false
  | .flowMappingValue => valueOr [.flowEntry, .flowMappingEnd] .flowMappingKey (node false false)
  | .flowMappingLoneKey =>
    let next ← peek
    goTo .flowMappingKey
    return emptyScalar next.line

/-- Event after event, as far as each can be had. -/
def eventsFrom : Nat → Parser → List Event → List Event × Option Fault
  | 0, _, done => (done.reverse, some (.malformed 0))
  | fuel + 1, parser, done =>
    match parser.phase with
    | none => (done.reverse, none)
    | some phase =>
      match (step phase).run parser with
      | .error fault => (done.reverse, some fault)
      | .ok (event, parser) => eventsFrom fuel parser (event :: done)

end Parser

/-- Events up to the first that cannot be had, and what stands in its way. -/
structure Reading where
  events : List Event
  fault : Option Fault
deriving DecidableEq, Repr

/-- Gives the events of a file. -/
abbrev EventSource := Bytes → Reading

def Source.read (source : Source) : Reading :=
  let (tokens, ending) := source.tokens
  let parser : Parser := {
    tokens, ending, phase := some .streamStart, stack := [], handles := Parser.standardHandles }
  let (events, fault) := parser.eventsFrom (8 * (tokens.length + 2)) []
  ⟨events, fault⟩

def textEvents (text : String) : Reading :=
  (Source.ofText text).read

def fileEvents : EventSource :=
  fun bytes => (Source.ofFile bytes).read

end MemoryBoard.Yaml
