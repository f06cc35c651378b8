import MemoryBoard.Bytes
import MemoryBoard.Chunks
import MemoryBoard.Text.Digits

set_option autoImplicit false

namespace MemoryBoard.HexDump

open Text

/-- Bytes on a full line. -/
def columns : Nat := 16

def halfColumns : Nat := columns / 2

/-- Characters that a full half takes. -/
def halfWidth : Nat := halfColumns * 3 - 1

def gutterChar (byte : UInt8) : Char :=
  if 0x20 ≤ byte.toNat ∧ byte.toNat < 0x7f then Char.ofNat byte.toNat else '.'

/-- Bytes with single spaces between them, filled up to the width of a full half. -/
def half (bytes : Bytes) : List Char :=
  let text := List.intercalate [' '] (bytes.map fun byte => hexField 2 byte.toNat)
  text ++ List.replicate (halfWidth - text.length) ' '

/-- The line for up to sixteen bytes. -/
def line (address : Int) (row : Bytes) : List Char :=
  signedField 10 [] upperHex address ++ [':', ' '] ++ half (row.take halfColumns) ++ [' ', ' '] ++
    half (row.drop halfColumns) ++ [' ', ' '] ++ row.map gutterChar

/-- The lines of some bytes, the first of them at `base`. -/
def linesOf (data : Bytes) (base : Int) : List (List Char) :=
  (chunks columns data).mapIdx fun index row => line (base + columns * index) row

/-- The dump of some bytes from `base` on. -/
def ofData (data : Bytes) (base : Int) : List Char :=
  (linesOf data base).flatMap (· ++ ['\n'])

/-- The dump of the data bytes of `cells`. -/
def write (cells : Bytes) (base : Int) : List Char :=
  ofData cells.evens base

end MemoryBoard.HexDump
