import MemoryBoard.Bytes
import MemoryBoard.Chunks
import MemoryBoard.Diagnostics
import MemoryBoard.Text.Digits

set_option autoImplicit false

/- UF2 flash files: blocks of 512 bytes, each with eight header words, 476 bytes of room for data
and a closing word. -/
namespace MemoryBoard

inductive Uf2Error where
  | truncated (block : Nat)
  | badMagic (block : Nat)
  | payloadTooLarge (size block : Nat)
deriving DecidableEq, Repr

def Uf2Error.message : Uf2Error → String
  | truncated block => s!"truncated block {block}"
  | badMagic block => s!"bad magic in block {block}"
  | payloadTooLarge size block => s!"payload size {size} too large in block {block}"

namespace Uf2

structure Block where
  flags : Nat
  target : Nat
  payloadSize : Nat
  number : Nat
  total : Nat
  family : Nat
  payload : Bytes
deriving DecidableEq, Repr

def blockSize : Nat := 512

/-- Bytes of payload in each block written. -/
def payloadStep : Nat := 256

def headerSize : Nat := 32

/-- Room for data in a block. -/
def dataArea : Nat := 476

def firstMagic : Nat := 0x0a324655

def secondMagic : Nat := 0x9e5d5157

def lastMagic : Nat := 0x0ab16f30

/-- Says that the family word is set. -/
def familyFlag : Nat := 0x2000

/-- The microcontroller of the board. -/
def boardFamily : Nat := 0xe48bff56

/-- How many blocks `size` bytes take. -/
def blockCount (size : Int) : Int :=
  (size + payloadStep - 1) / payloadStep

/-- Header words in order, or nothing if one of them does not fit. -/
def packWords : List Int → Option Bytes
  | [] => some []
  | word :: rest => do
    let bytes ← Bytes.packed? 4 word
    return bytes ++ (← packWords rest)

/-- A block of up to 256 payload bytes, which must go to a 32-bit address. -/
def writeBlock (target : Int) (number total : Nat) (piece : Bytes) : Option Bytes := do
  let header ← packWords
    [firstMagic, secondMagic, familyFlag, target, payloadStep, number, total, boardFamily]
  return header ++ piece.padded dataArea ++ Bytes.littleEndian 4 lastMagic

/-- The blocks for `data` at `address`, nothing in place of one that has no 32-bit target. -/
def blocksFor (data : Bytes) (address : Int) : List (Option Bytes) :=
  let pieces := chunks payloadStep data
  pieces.mapIdx fun index piece =>
    writeBlock (address + payloadStep * index) index pieces.length piece

/-- The file that puts `data` at `address`, cut off before the first block that has no 32-bit
target, and the number of blocks if there is no such block. -/
def write (data : Bytes) (address : Int) : Bytes × Option Nat :=
  let blocks := blocksFor data address
  let file := (blocks.takeWhile Option.isSome).flatMap (·.getD [])
  (file, if blocks.all Option.isSome then some blocks.length else none)

def writeLog (data : Bytes) (address : Int) : List LogEntry :=
  match (write data address).2 with
  | none => []
  | some blocks =>
    [⟨"uf2", s!"wrote {blocks} blocks ({data.length} bytes) at {Text.hexNumber 8 address}"⟩]

/-- The 32-bit word at an offset. -/
def wordAt (block : Bytes) (offset : Nat) : Nat :=
  Bytes.toNat ((block.drop offset).take 4)

/-- Takes one block apart; `number` counts the ones before it. -/
def readBlock (number : Nat) (block : Bytes) : Except Uf2Error Block :=
  if block.length < blockSize then .error (.truncated number)
  else if wordAt block 0 ≠ firstMagic ∨ wordAt block 4 ≠ secondMagic ∨
      wordAt block (blockSize - 4) ≠ lastMagic then
    .error (.badMagic number)
  else
    let payloadSize := wordAt block 16
    if dataArea < payloadSize then .error (.payloadTooLarge payloadSize number)
    else .ok {
      flags := wordAt block 8
      target := wordAt block 12
      payloadSize
      number := wordAt block 20
      total := wordAt block 24
      family := wordAt block 28
      payload := (block.drop headerSize).take payloadSize }

/-- Every block of a file, the first bad one rejecting it. -/
def read (file : Bytes) : Except Uf2Error (List Block) :=
  ((chunks blockSize file).mapIdx readBlock).mapM id

end Uf2

end MemoryBoard
