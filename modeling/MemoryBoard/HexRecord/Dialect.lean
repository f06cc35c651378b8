import MemoryBoard.Bytes

set_option autoImplicit false

/- The two kinds of hex record files. Both write a marker, a byte count, an address, the bytes and a
checksum on each line. Intel records have a type before the bytes and a checksum that brings the sum
of the line to zero; papertape records have the sum itself in sixteen bits. -/
namespace MemoryBoard.HexRecord

inductive Dialect where
  | intel
  | papertape
deriving DecidableEq, Repr

namespace Dialect

def name : Dialect → String
  | intel => "ihex"
  | papertape => "pap"

def marker : Dialect → Char
  | intel => ':'
  | papertape => ';'

/-- How many bytes a full record holds when written. -/
def bytesPerLine : Dialect → Nat
  | intel => 32
  | papertape => 24

def checksumDigits : Dialect → Nat
  | intel => 2
  | papertape => 4

/-- The sum over the count, both bytes of the address and the payload. -/
def total (count address : Int) (payload : Bytes) : Int :=
  count + address / 256 % 256 + address % 256 + payload.sum

def checksum (dialect : Dialect) (count address : Int) (payload : Bytes) : Nat :=
  match dialect with
  | intel => (-total count address payload % 256).toNat
  | papertape => (total count address payload % 65536).toNat

end Dialect

end MemoryBoard.HexRecord
