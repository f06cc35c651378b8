import MemoryBoard.Chunks
import MemoryBoard.Diagnostics
import MemoryBoard.HexRecord.Line

set_option autoImplicit false

namespace MemoryBoard.HexRecord

open Text

namespace Dialect

def typeField : Dialect → List Char
  | intel => ['0', '0']
  | papertape => []

/-- The line of a data record. -/
def dataLine (dialect : Dialect) (record : Record) : List Char :=
  let count := record.payload.length
  let sum := dialect.checksum count record.address record.payload
  dialect.marker :: hexField 2 count ++ hexField 4 record.address ++ dialect.typeField ++
    record.payload.flatMap (fun byte => hexField 2 byte.toNat) ++
    hexField dialect.checksumDigits sum

/-- The last line, where `before` data records precede it. -/
def terminalLine (dialect : Dialect) (before : Nat) : List Char :=
  match dialect with
  | intel => intelTerminal
  | papertape =>
    [';', '0', '0'] ++ hexField 4 before ++ hexField 4 (before / 256 % 256 + before % 256)

end Dialect

/-- The records that hold `data` from `base` on, addresses modulo the address space. -/
def recordsOf (dialect : Dialect) (base : Int) (data : Bytes) : List Record :=
  (chunks dialect.bytesPerLine data).mapIdx fun index piece =>
    ⟨((base + dialect.bytesPerLine * index) % 65536).toNat, piece⟩

/-- The lines of a file, without their ends. -/
def linesOf (dialect : Dialect) (base : Int) (data : Bytes) : List (List Char) :=
  let records := recordsOf dialect base data
  records.map dialect.dataLine ++ [dialect.terminalLine records.length]

/-- The file that holds the data bytes of `cells` from `base` on. -/
def write (dialect : Dialect) (cells : Bytes) (base : Int) : List Char :=
  (linesOf dialect base cells.evens).flatMap (· ++ ['\n'])

def writeLog (dialect : Dialect) (cells : Bytes) (base : Int) : List LogEntry :=
  let data := cells.evens
  let lines := (recordsOf dialect base data).length
  [⟨"hex", s!"{dialect.name}: wrote {data.length} bytes in {lines} records " ++
    s!"from {hexNumber 4 base}"⟩]

end MemoryBoard.HexRecord
