import MemoryBoard.Bytes
import MemoryBoard.Memory.Access
import MemoryBoard.Text.Digits

set_option autoImplicit false

/- The memory of the board: for each of 65536 addresses a data byte and, behind it, an attribute
byte. Single cells take any address modulo the address space; ranges that leave it are refused and
change nothing. -/
namespace MemoryBoard

/-- How many addresses there are. -/
def addressCount : Nat := 0x10000

/-- Bytes in the image, two for each address. -/
def imageSize : Nat := 2 * addressCount

inductive ImageError where
  | wrongSize (size : Nat)
  | outside (start count : Int)
  | oddCells
deriving DecidableEq, Repr

def ImageError.message : ImageError → String
  | wrongSize size => s!"image must be {imageSize} bytes, got {size}"
  | outside start count =>
    s!"range {Text.markedHex 6 start}+{Text.markedHex 0 count} outside the 0x10000 address space"
  | oddCells => "cell payload must hold data/attribute pairs"

structure Image where
  cells : Array UInt8
  size_cells : cells.size = imageSize

namespace Image

/-- Writes the bytes to every other place from `index` on. -/
def writeAlternate (cells : Array UInt8) (index : Nat) : Bytes → Array UInt8
  | [] => cells
  | byte :: rest => writeAlternate (cells.setIfInBounds index byte) (index + 2) rest

/-- Writes the bytes to consecutive places from `index` on. -/
def writeConsecutive (cells : Array UInt8) (index : Nat) : Bytes → Array UInt8
  | [] => cells
  | byte :: rest => writeConsecutive (cells.setIfInBounds index byte) (index + 1) rest

@[simp] theorem size_writeAlternate (cells : Array UInt8) (index : Nat) (bytes : Bytes) :
    (writeAlternate cells index bytes).size = cells.size := by
  induction bytes generalizing cells index with
  | nil => rfl
  | cons byte rest ih => simp [writeAlternate, ih]

@[simp] theorem size_writeConsecutive (cells : Array UInt8) (index : Nat) (bytes : Bytes) :
    (writeConsecutive cells index bytes).size = cells.size := by
  induction bytes generalizing cells index with
  | nil => rfl
  | cons byte rest ih => simp [writeConsecutive, ih]

/-- All bytes zero. -/
def zero : Image where
  cells := Array.replicate imageSize 0
  size_cells := by simp

instance : Inhabited Image := ⟨zero⟩

/-- The image with the given cells, which have to fill it. -/
def ofBytes (bytes : Bytes) : Except ImageError Image :=
  let cells := bytes.toArray
  if size_cells : cells.size = imageSize then .ok ⟨cells, size_cells⟩
  else .error (.wrongSize cells.size)

def toBytes (image : Image) : Bytes :=
  image.cells.toList

def size (image : Image) : Nat :=
  image.cells.size

/-- The data byte at an address. -/
def dataAt (image : Image) (address : Nat) : UInt8 :=
  image.cells[2 * address]?.getD 0

/-- The attribute byte at an address. -/
def attributeAt (image : Image) (address : Nat) : UInt8 :=
  image.cells[2 * address + 1]?.getD 0

/-- An address modulo the address space. -/
def wrap (address : Int) : Nat :=
  (address % addressCount).toNat

/-- The low eight bits of a number. -/
def dataByte (value : Int) : UInt8 :=
  UInt8.ofNat (value % 256).toNat

/-- The two defined bits of a number. -/
def attributeByte (value : Int) : UInt8 :=
  UInt8.ofNat (value % 4).toNat

def loadData (image : Image) (address : Int) : UInt8 :=
  image.dataAt (wrap address)

def loadAttribute (image : Image) (address : Int) : UInt8 :=
  image.attributeAt (wrap address)

def storeData (image : Image) (address value : Int) : Image where
  cells := image.cells.setIfInBounds (2 * wrap address) (dataByte value)
  size_cells := by simp [image.size_cells]

def storeAttribute (image : Image) (address value : Int) : Image where
  cells := image.cells.setIfInBounds (2 * wrap address + 1) (attributeByte value)
  size_cells := by simp [image.size_cells]

/-- The same data and attribute at every address. -/
def uniform (value access : Int) : Image where
  cells := Array.ofFn fun index : Fin imageSize =>
    if index.val % 2 = 0 then dataByte value else attributeByte access
  size_cells := by simp

/-- Whether `count` addresses from `start` on lie in the address space. -/
def Covers (start count : Int) : Prop :=
  0 ≤ start ∧ 0 ≤ count ∧ start + count ≤ addressCount

instance (start count : Int) : Decidable (Covers start count) :=
  inferInstanceAs (Decidable (_ ∧ _ ∧ _))

/-- Puts bytes into the data of the addresses from `start` on. -/
def writeData (image : Image) (start : Int) (payload : Bytes) : Except ImageError Image :=
  if Covers start payload.length then
    .ok ⟨writeAlternate image.cells (2 * start.toNat) payload, by simp [image.size_cells]⟩
  else .error (.outside start payload.length)

/-- Puts one value into the data of the addresses from `start` to `last`. -/
def fillData (image : Image) (start last value : Int) : Except ImageError Image :=
  let count := last - start + 1
  if Covers start count then
    image.writeData start (List.replicate count.toNat (dataByte value))
  else .error (.outside start count)

/-- Gives `count` addresses from `start` on one attribute. -/
def setAttributes (image : Image) (start count access : Int) : Except ImageError Image :=
  if Covers start count then
    let payload := List.replicate count.toNat (attributeByte access)
    .ok ⟨writeAlternate image.cells (2 * start.toNat + 1) payload, by simp [image.size_cells]⟩
  else .error (.outside start count)

/-- Puts data and attribute pairs at the addresses from `start` on. -/
def writeCells (image : Image) (start : Int) (payload : Bytes) : Except ImageError Image :=
  if payload.length % 2 ≠ 0 then .error .oddCells
  else if Covers start (payload.length / 2 : Nat) then
    .ok ⟨writeConsecutive image.cells (2 * start.toNat) payload, by simp [image.size_cells]⟩
  else .error (.outside start (payload.length / 2 : Nat))

/-- The data of `count` addresses from `start` on. -/
def readData (image : Image) (start count : Int) : Except ImageError Bytes :=
  if Covers start count then
    .ok ((List.range count.toNat).map fun offset => image.dataAt (start.toNat + offset))
  else .error (.outside start count)

/-- The data and attribute pairs of `count` addresses from `start` on. -/
def readCells (image : Image) (start count : Int) : Except ImageError Bytes :=
  if Covers start count then
    .ok (image.cells.extract (2 * start.toNat) (2 * (start.toNat + count.toNat))).toList
  else .error (.outside start count)

end Image

end MemoryBoard
