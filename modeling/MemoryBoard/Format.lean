import MemoryBoard.FlatFile
import MemoryBoard.HexDump
import MemoryBoard.HexRecord.Reader
import MemoryBoard.HexRecord.Writer

set_option autoImplicit false

namespace MemoryBoard

/-- Formats with a reader. -/
inductive InputFormat where
  | records (dialect : HexRecord.Dialect)
  | flat (layout : FlatFile)
deriving DecidableEq, Repr

inductive Format where
  | dump
  | file (format : InputFormat)
deriving DecidableEq, Repr

namespace Format

/-- Every format, in the order of the listings. -/
def all : List Format := [
  dump, file (.flat .plain), file (.records .intel), file (.records .papertape),
  file (.flat .addressed), file (.flat .cells)]

def name : Format → String
  | dump => "hexdump"
  | file (.records dialect) => dialect.name
  | file (.flat .plain) => "bin"
  | file (.flat .addressed) => "prg"
  | file (.flat .cells) => "raw"

def description : Format → String
  | dump => "Hex dump (output only)"
  | file (.records .intel) => "Intel HEX format"
  | file (.records .papertape) => "MOS papertape format"
  | file (.flat .plain) => "Binary data"
  | file (.flat .addressed) => "Commodore PRG format"
  | file (.flat .cells) => "Internal format (for debugging)"

/-- Whether files of the format are text. -/
def isText : Format → Bool
  | dump => true
  | file (.records _) => true
  | file (.flat _) => false

/-- Whether a reader fills data and attribute pairs instead of one byte for each address. -/
def holdsCells (format : Format) : Bool :=
  format == file (.flat .cells)

def hasReader : Format → Bool
  | dump => false
  | file _ => true

def hasWriter (_ : Format) : Bool :=
  true

def ofName? (name : String) : Option Format :=
  all.find? (·.name == name)

/-- Content of a file to write. -/
inductive Content where
  | text (text : List Char)
  | bytes (bytes : Bytes)
deriving DecidableEq, Repr

def write (format : Format) (cells : Bytes) (base : Int) : Content :=
  match format with
  | dump => .text (HexDump.write cells base)
  | file (.records dialect) => .text (HexRecord.write dialect cells base)
  | file (.flat layout) => .bytes (layout.write cells base)

def writeLog (format : Format) (cells : Bytes) (base : Int) : List LogEntry :=
  match format with
  | file (.records dialect) => HexRecord.writeLog dialect cells base
  | _ => []

end Format

def InputFormat.ofName? (name : String) : Option InputFormat :=
  match Format.ofName? name with
  | some (.file format) => some format
  | _ => none

end MemoryBoard
