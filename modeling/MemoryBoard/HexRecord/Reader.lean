import MemoryBoard.Diagnostics
import MemoryBoard.HexRecord.Line
import MemoryBoard.Memory.Image
import MemoryBoard.Memory.Block
import MemoryBoard.Text.Lines

set_option autoImplicit false

namespace MemoryBoard

/-- The line that a file is rejected at. -/
structure HexError where
  line : Nat
  fault : HexRecord.Fault
deriving DecidableEq, Repr

def HexError.message (error : HexError) : String :=
  s!"{error.fault.message} at line {error.line}"

namespace HexRecord

/-- The records of the lines up to the terminal one; `before` lines precede, whose records are in
`done`, latest first, and `ending` is the fault of the line that is missed at the end. -/
def recordsFrom (dialect : Dialect) (capacity : Nat) (ending : Fault) (before : Nat)
    (done : List Record) : List (List Char) → Except HexError (List Record)
  | [] => .error ⟨before, ending⟩
  | line :: rest =>
    match dialect.readLine capacity before line with
    | .error fault => .error ⟨before + 1, fault⟩
    | .ok .terminal => .ok done.reverse
    | .ok (.data record) =>
      recordsFrom dialect capacity ending (before + 1) (record :: done) rest

/-- A line without the carriage returns at its end. -/
def trimLine (line : List Char) : List Char :=
  Text.dropWhileEnd (· == '\r') line

def records (dialect : Dialect) (capacity : Nat) (source : Text.Source) :
    Except HexError (List Record) :=
  let ending := match source.defect with
    | none => .unexpectedEnd
    | some cause => .defect cause
  recordsFrom dialect capacity ending 0 [] (source.lines.map trimLine)

/-- A record that starts where the newest block ends makes that block longer; any other one opens a
block of its own in front. -/
def extendBlocks (blocks : List Block) (record : Record) : List Block :=
  match blocks with
  | [] => [⟨record.address, record.payload.length, true⟩]
  | newest :: older =>
    if record.address = newest.start + newest.count then
      { newest with count := newest.count + record.payload.length } :: older
    else ⟨record.address, record.payload.length, true⟩ :: newest :: older

/-- Runs of records that continue one another in the file, newest first. -/
def blocksOf (records : List Record) : List Block :=
  records.foldl extendBlocks []

/-- Places the records in file order, later bytes over earlier ones. -/
def placeAll (buffer : Array UInt8) (records : List Record) : Array UInt8 :=
  records.foldl
    (fun buffer record => Image.writeConsecutive buffer record.address record.payload) buffer

/-- Reads a file into a buffer of one byte for each address. -/
def read (dialect : Dialect) (source : Text.Source) (buffer : Array UInt8) :
    Except HexError (List Block) × Array UInt8 :=
  match records dialect buffer.size source with
  | .ok records => (.ok (blocksOf records), placeAll buffer records)
  | .error error => (.error error, buffer)

/-- What reading into a buffer of `capacity` bytes reports. -/
def readLog (dialect : Dialect) (capacity : Nat) (source : Text.Source) : List LogEntry :=
  match records dialect capacity source with
  | .ok records =>
    let blocks := (blocksOf records).length
    [⟨"hex", s!"{dialect.name}: {records.length + 1} records, {blocks} blocks"⟩]
  | .error ⟨line, .wrongChecksum calculated found⟩ =>
    [⟨"hex", s!"line {line}: calculated {Text.hexNumber 4 calculated}, " ++
      s!"read {Text.hexNumber 4 found}"⟩]
  | .error _ => []

end HexRecord

end MemoryBoard
