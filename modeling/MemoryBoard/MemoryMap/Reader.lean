import MemoryBoard.Document
import MemoryBoard.Files.Tree
import MemoryBoard.Memory.Image
import MemoryBoard.MemoryMap.Segment
import MemoryBoard.Scan.Choice
import MemoryBoard.Scan.Number

set_option autoImplicit false

namespace MemoryBoard.MemoryMap

/-- The keys of a document. -/
inductive Field where
  | start
  | last
  | enabled
  | type
  | fill
  | data
  | file
deriving DecidableEq, Repr

namespace Field

def all : List Field := [start, last, enabled, type, fill, data, file]

def name : Field → String
  | start => "start"
  | last => "end"
  | enabled => "enabled"
  | type => "type"
  | fill => "fill"
  | data => "data"
  | file => "file"

def ofName? (name : Text.CodeText) : Option Field :=
  all.find? (·.name == name)

end Field

end MemoryMap

inductive MemoryMapError where
  | unexpectedEvent (kind : Yaml.EventKind) (line : Option Int)
  | unexpectedEnd
  | notYaml
  | unknownKey (key : Text.CodeText)
  | repeatedKey (field : MemoryMap.Field)
  | badValue (field : MemoryMap.Field) (text : Text.CodeText)
  | blankValue (field : MemoryMap.Field)
  | noStart
  | reversed
  | noExtent
  | dataAndFile
  | fillWithoutEnd
  | noAction (start : Int)
  | noSize (file : Text.CodeText) (error : SystemError)
  | tooBig (start : Int)
  | cannotOpen (error : FileError)
  | defect (cause : Defect)
deriving DecidableEq, Repr

namespace MemoryMapError

private def badMap (what : String) : String :=
  s!"Bad memory map file: {what}"

def message : MemoryMapError → Text.CodeText
  | unexpectedEvent kind line => badMap (Document.unexpected kind line)
  | unexpectedEnd => badMap "unexpected end of input"
  | notYaml => badMap Document.notYaml
  | unknownKey key => "Unexpected memory parameter: " ++ key
  | repeatedKey field => s!"Duplicated key: {field.name}"
  | badValue .start text => "Invalid start memory address: " ++ text
  | badValue .last text => "Invalid end memory address: " ++ text
  | badValue .enabled text => "Invalid boolean value for 'enabled': " ++ text
  | badValue .type text => "Invalid memory type: " ++ text
  | badValue .fill text => "Invalid 'fill' byte: " ++ text
  | badValue .data text => "Invalid data: " ++ text
  | badValue .file text => "Invalid file: " ++ text
  | blankValue field => s!"'{field.name}' must not be blank"
  | noStart => badMap "'start' is mandatory"
  | reversed => badMap "'end' smaller than 'start'"
  | noExtent => badMap "at least one of 'end', 'data' or 'file' must be present"
  | dataAndFile => badMap "'data' and 'file' are mutually exclusive"
  | fillWithoutEnd => badMap "'fill' needs an 'end'"
  | noAction start => s!"No action for section starting at 0x{Text.hexNumber 4 start}"
  | noSize file error => "Can't get file '" ++ file ++ s!"' size: {error.reason}"
  | tooBig start =>
    s!"Data length/file size too big in segment starting at 0x{Text.hexNumber 4 start}"
  | cannotOpen error => s!"Can't open memory map file: {error.message}"
  | defect _ => "Unreadable text"

end MemoryMapError

namespace MemoryMap

inductive Phase where
  | start
  | stream
  | document
  | key
  | value (field : Field)
  | stop
deriving DecidableEq, Repr

/-- What a memory map may refer to. -/
structure Setting where
  /-- Where relative file names start from. -/
  directory : Option Path
  /-- The size of the file at a path. -/
  size : Path → Except FileError Nat

structure State where
  phase : Phase
  segments : Array Segment
  /-- The segment of the document being read, or of the last one. -/
  current : Segment
  /-- The keys of the document so far. -/
  seen : List Field
deriving DecidableEq, Repr

def State.initial : State := ⟨.start, #[], {}, []⟩

def State.done (state : State) : Bool :=
  state.phase == .stop

/-- Where a file name leads. -/
def Setting.resolve (setting : Setting) (file : Text.CodeText) : Path :=
  match setting.directory with
  | none => .ofText file
  | some directory => directory.relativeTo (.ofText file)

/-- The segment with the value of a field put in. -/
def store (setting : Setting) (segment : Segment) (field : Field) (text : Text.CodeText) :
    Except MemoryMapError Segment :=
  let scanned {α : Type} (scan : String → Except ScanError α) (put : α → Segment) :
      Except MemoryMapError Segment :=
    Scan.converted scan text .defect (.badValue field text) put
  match field with
  | .start => scanned Scan.unsigned16 fun value => { segment with start := some value }
  | .last => scanned Scan.unsigned16 fun value => { segment with last := some value }
  | .enabled => scanned Scan.boolean fun value => { segment with enabled := some value }
  | .type => scanned Scan.memoryType fun value => { segment with readonly := some value }
  | .fill => scanned Scan.unsigned8 fun value => { segment with fill := some value }
  | .data =>
    if text = [] then .error (.blankValue .data)
    else match text.utf8? with
      | none => .error (.defect .unencodable)
      | some bytes => .ok { segment with data := some bytes }
  | .file =>
    if text = [] then .error (.blankValue .file)
    else .ok { segment with file := some text, path := some (setting.resolve text) }

/-- What the fields of a document have to agree on. The result is the start address. -/
def check (segment : Segment) : Except MemoryMapError Int :=
  match segment.start with
  | none => .error .noStart
  | some start =>
    if segment.last.any (· < start) then .error .reversed
    else if segment.last.isNone ∧ segment.data.isNone ∧ segment.file.isNone then
      .error .noExtent
    else if segment.data.isSome ∧ segment.file.isSome then .error .dataAndFile
    else if segment.fill.isSome ∧ segment.last.isNone then .error .fillWithoutEnd
    else if !segment.hasAction then .error (.noAction start)
    else .ok start

/-- How many addresses a checked segment takes: the length of its data or of its file, or else all
up to its end. -/
def extent (setting : Setting) (segment : Segment) (start : Int) : Except MemoryMapError Int :=
  let span : Int := segment.last.getD start - start + 1
  let measured : Except MemoryMapError Int := match segment.path with
    | none => .ok span
    | some path =>
      match setting.size path with
      | .ok size => .ok size
      | .error (.system _ error) => .error (.noSize (segment.file.getD []) error)
      | .error (.defect cause) => .error (.defect cause)
  match segment.data with
  | some (byte :: rest) => .ok ((byte :: rest).length : Nat)
  | _ => measured

/-- Whether a segment stays in the address space and before its own end. -/
def fits (segment : Segment) (start : Int) : Bool :=
  start + segment.count ≤ addressCount &&
    segment.last.all fun last => segment.count ≤ last - start + 1

/-- The end of a document. A segment that is too big keeps its count, but nothing else changes. -/
def close (setting : Setting) (state : State) : State × Option MemoryMapError :=
  match check state.current with
  | .error error => (state, some error)
  | .ok start =>
    match extent setting state.current start with
    | .error error => (state, some error)
    | .ok count =>
      let segment := { state.current with count }
      if fits segment start then
        ({ state with
          phase := .stream, current := segment, segments := state.segments.push segment }, none)
      else ({ state with current := segment }, some (.tooBig start))

/-- Takes an event, or rejects it. -/
def feed (setting : Setting) (state : State) (event : Yaml.Event) : State × Option MemoryMapError :=
  match state.phase, event.kind with
  | .start, .streamStart => ({ state with phase := .stream }, none)
  | .stream, .documentStart =>
    ({ state with phase := .document, current := {}, seen := [] }, none)
  | .stream, .streamEnd => ({ state with phase := .stop }, none)
  | .document, .mappingStart => ({ state with phase := .key }, none)
  | .document, .documentEnd => close setting state
  | .key, .scalar =>
    match Field.ofName? event.text with
    | none => (state, some (.unknownKey event.text))
    | some field =>
      if field ∈ state.seen then (state, some (.repeatedKey field))
      else ({ state with phase := .value field, seen := field :: state.seen }, none)
  | .key, .mappingEnd => ({ state with phase := .document }, none)
  | .value field, .scalar =>
    match store setting state.current field event.text with
    | .error error => (state, some error)
    | .ok current => ({ state with phase := .key, current }, none)
  | _, kind => (state, some (.unexpectedEvent kind event.line))

def consume (setting : Setting) (state : State) (events : List Yaml.Event) :
    State × Option MemoryMapError :=
  Document.consume (feed setting) State.done .unexpectedEnd state events

/-- Reads the events of a text. The state holds the segments up to an error. -/
def read (setting : Setting) (reading : Yaml.Reading) : State × Option MemoryMapError :=
  let ending : MemoryMapError := match reading.fault with
    | none => .unexpectedEnd
    | some (.defect cause) => .defect cause
    | some _ => .notYaml
  Document.consume (feed setting) State.done ending .initial reading.events

/-- What reading reports about the segments it added. -/
def State.log (state : State) : List LogEntry :=
  state.segments.toList.map Segment.readEntry

end MemoryMap

end MemoryBoard
