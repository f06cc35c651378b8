import MemoryBoard.HexRecord.Dialect
import MemoryBoard.Defect
import MemoryBoard.Scan.Number

set_option autoImplicit false

namespace MemoryBoard.HexRecord

/-- What is wrong with a line. -/
inductive Fault where
  | noMarker
  | badCount
  | tooShort
  | badAddress
  | badType
  | badByte
  | noChecksum
  | wrongChecksum (calculated found : Nat)
  | doesNotFit
  | badTerminal
  | badLineCount
  | wrongLineCount
  | badLineSum
  | wrongLineSum
  | unexpectedEnd
  | defect (cause : Defect)
deriving DecidableEq, Repr

def Fault.message : Fault → String
  | noMarker => "Malformed hex file"
  | badCount => "Invalid record length"
  | tooShort => "Malformed hex file: line too short"
  | badAddress => "Invalid load address"
  | badType => "Invalid or unsupported record type"
  | badByte => "Malformed hex file: invalid byte"
  | noChecksum => "Malformed hex file: can't get checksum"
  | wrongChecksum _ _ => "Malformed hex file: bad checksum"
  | doesNotFit => "Record does not fit in the destination buffer"
  | badTerminal => "Invalid end of file record"
  | badLineCount => "Invalid line count"
  | wrongLineCount => "Invalid line count in hex file"
  | badLineSum => "Invalid checksum"
  | wrongLineSum => "Invalid checksum in hex file"
  | unexpectedEnd => "Unexpected end of hex file"
  | defect _ => "Unreadable text"

/-- Bytes for consecutive addresses. -/
structure Record where
  address : Nat
  payload : Bytes
deriving DecidableEq, Repr

inductive Line where
  | data (record : Record)
  | terminal
deriving DecidableEq, Repr

/-- The number in `digits` hex digits from `index` on. -/
def field? (line : List Char) (index digits : Nat) : Option Nat :=
  (Scan.hexDigits digits (line.drop index)).toOption

def field (line : List Char) (index digits : Nat) (fault : Fault) : Except Fault Nat :=
  match field? line index digits with
  | some value => .ok value
  | none => .error fault

/-- Bytes written as pairs of hex digits. -/
def bytePairs? : Nat → List Char → Option Bytes
  | 0, _ => some []
  | count + 1, text => do
    let byte ← field? text 0 2
    let rest ← bytePairs? count (text.drop 2)
    return UInt8.ofNat byte :: rest

/-- The terminal record of an Intel file, where its byte count is zero. -/
def intelTerminal : List Char :=
  ":00000001FF".toList

/-- Characters of a record apart from its bytes. -/
def frameLength : Nat := 11

namespace Dialect

/-- Where the bytes of a record begin. -/
def payloadIndex : Dialect → Nat
  | intel => 9
  | papertape => 7

/-- Reads the type of a data record, in the dialect that has one. -/
def checkType (dialect : Dialect) (line : List Char) : Except Fault Unit :=
  match dialect with
  | papertape => .ok ()
  | intel => if field? line 7 2 = some 0 then .ok () else .error .badType

/-- Reads a record without bytes. A papertape one holds the number of lines before it. -/
def readTerminal (dialect : Dialect) (before : Nat) (line : List Char) : Except Fault Unit :=
  match dialect with
  | intel => if intelTerminal.isPrefixOf line then .ok () else .error .badTerminal
  | papertape => do
    let lines ← field line 3 4 .badLineCount
    if lines ≠ before then .error .wrongLineCount
    else
      let sum ← field line 7 4 .badLineSum
      if sum ≠ lines / 256 % 256 + lines % 256 then .error .wrongLineSum else .ok ()

/-- Reads a record of `count` bytes, which have to lie below `capacity`. -/
def readData (dialect : Dialect) (capacity count : Nat) (line : List Char) :
    Except Fault Record := do
  let address ← field line 3 4 .badAddress
  dialect.checkType line
  match bytePairs? count (line.drop dialect.payloadIndex) with
  | none => .error .badByte
  | some payload =>
    let index := dialect.payloadIndex + 2 * count
    let found ← field line index dialect.checksumDigits .noChecksum
    let calculated := dialect.checksum count address payload
    if found ≠ calculated then .error (.wrongChecksum calculated found)
    else if address + count > capacity then .error .doesNotFit
    else .ok ⟨address, payload⟩

/-- Reads a line that `before` lines precede. -/
def readLine (dialect : Dialect) (capacity before : Nat) (line : List Char) :
    Except Fault Line :=
  if line.head? ≠ some dialect.marker then .error .noMarker
  else do
    let count ← field line 1 2 .badCount
    if line.length < frameLength + 2 * count then .error .tooShort
    else if count = 0 then do
      dialect.readTerminal before line
      return .terminal
    else return .data (← dialect.readData capacity count line)

end Dialect

end MemoryBoard.HexRecord
