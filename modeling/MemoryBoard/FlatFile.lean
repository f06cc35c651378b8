import MemoryBoard.Diagnostics
import MemoryBoard.Memory.Block
import MemoryBoard.Memory.Image

set_option autoImplicit false

namespace MemoryBoard

inductive BinaryError where
  | badLength
  | badSize
  | oddLength
deriving DecidableEq, Repr

def BinaryError.message : BinaryError → String
  | badLength => "Invalid file length"
  | badSize => "Invalid file size"
  | oddLength => "Raw file length must be even"

inductive FlatFile where
  /-- Data bytes alone. -/
  | plain
  /-- A little-endian load address and data bytes. -/
  | addressed
  /-- Data and attribute pairs. -/
  | cells
deriving DecidableEq, Repr

namespace FlatFile

/-- Bytes of a file and where they go in the buffer. -/
structure Load where
  offset : Nat
  payload : Bytes
  block : Block
deriving DecidableEq, Repr

/-- Accepts a payload that is not empty and no longer than `capacity`. -/
def checkSize (capacity : Int) (payload : Bytes) : Except BinaryError Unit :=
  if payload = [] ∨ capacity < payload.length then .error .badSize else .ok ()

/-- Takes a file apart for a buffer of `capacity` bytes. -/
def decode (layout : FlatFile) (capacity : Nat) (file : Bytes) : Except BinaryError Load :=
  match layout with
  | plain => do
    checkSize capacity file
    return ⟨0, file, ⟨0, file.length, false⟩⟩
  | addressed =>
    match file with
    | low :: high :: payload => do
      let start := Bytes.toNat [low, high]
      checkSize (capacity - start) payload
      return ⟨start, payload, ⟨start, payload.length, true⟩⟩
    | _ => .error .badLength
  | cells => do
    checkSize capacity file
    if file.length % 2 ≠ 0 then .error .oddLength
    else return ⟨0, file, ⟨0, file.length / 2, false⟩⟩

/-- Reads a file into a buffer, which stays as it is if the file is rejected. -/
def read (layout : FlatFile) (file : Bytes) (buffer : Array UInt8) :
    Except BinaryError (List Block) × Array UInt8 :=
  match layout.decode buffer.size file with
  | .ok load => (.ok [load.block], Image.writeConsecutive buffer load.offset load.payload)
  | .error error => (.error error, buffer)

/-- What reading into a buffer of `capacity` bytes reports. -/
def readLog (layout : FlatFile) (capacity : Nat) (file : Bytes) : List LogEntry :=
  match layout.decode capacity file with
  | .error _ => []
  | .ok load =>
    let count := load.block.count
    match layout with
    | plain => [⟨"bin", s!"bin: read {count} bytes"⟩]
    | addressed => [⟨"bin", s!"prg: read {count} bytes at {Text.hexNumber 4 load.block.start}"⟩]
    | cells => [⟨"bin", s!"raw: read {count} cells"⟩]

/-- The file for some data and attribute pairs, with `base` modulo the address space as the load
address. -/
def write (layout : FlatFile) (pairs : Bytes) (base : Int) : Bytes :=
  match layout with
  | plain => pairs.evens
  | addressed => Bytes.littleEndian 2 (base % 65536).toNat ++ pairs.evens
  | cells => pairs

end FlatFile

end MemoryBoard
