import MemoryBoard.CommandLine.Command
import MemoryBoard.CommandLine.Session

set_option autoImplicit false

namespace MemoryBoard.CommandLine

open Session

/-- An image and the addresses that were loaded into it. -/
structure Loaded where
  image : Image
  start : Int
  count : Int

/-- Reads a file in some format into a buffer of zeros. -/
def readBlocks (format : InputFormat) (path : Path) : Session (List Block × Array UInt8) := do
  let bytes ← readFile path
  match format with
  | .records dialect =>
    let source := Text.Source.ofFile bytes
    report (HexRecord.readLog dialect addressCount source)
    let (result, buffer) := HexRecord.read dialect source (Array.replicate addressCount 0)
    return (← lift .hex result, buffer)
  | .flat layout =>
    let size := if layout = .cells then imageSize else addressCount
    report (layout.readLog size bytes)
    let (result, buffer) := layout.read bytes (Array.replicate size 0)
    return (← lift .binary result, buffer)

/-- Where a block goes: to its own address, or to the one given if the format has none. -/
def blockStart (format : InputFormat) (start : Option (Argument Nat)) (block : Block) :
    Except UsageError (Argument Nat) :=
  let name := (Format.file format).name
  match block.hasStart, start with
  | true, none => .ok (.value block.start)
  | true, some _ => .error (.startForAddressed name)
  | false, some start => .ok start
  | false, none => .error (.noStart name)

/-- Puts a block of the buffer into the image. -/
def placeBlock (format : InputFormat) (buffer : Array UInt8) (start : Nat) (block : Block)
    (image : Image) : Except ImageError Image :=
  let offset := if block.hasStart then block.start else 0
  if (Format.file format).holdsCells then
    image.writeCells start (buffer.extract (offset * 2) ((offset + block.count) * 2)).toList
  else image.writeData start (buffer.extract offset (offset + block.count)).toList

/-- Places blocks one after another. `low` and `high` enclose the addresses so far. -/
def placeBlocks (format : InputFormat) (start : Option (Argument Nat)) (buffer : Array UInt8)
    (image : Image) (low high : Int) : List Block → Session Loaded
  | [] => return ⟨image, low, high - low⟩
  | block :: rest => do
    let place ← demand .missingValue (← lift .usage (blockStart format start block))
    let image ← lift .image (placeBlock format buffer place block image)
    let from_ := Text.hexNumber 4 block.start
    let count := Text.hexNumber 0 block.count
    report [⟨"cli", s!"block {from_}+{count} placed at {Text.hexNumber 4 place}"⟩]
    placeBlocks format start buffer image (min low place) (max high (place + block.count)) rest

def loadFile (path : Argument Path) (format : Option (Argument InputFormat))
    (start : Option (Argument Nat)) : Session Loaded := do
  match format with
  | none => fail (.usage .noFormat)
  | some format =>
    let format ← demand .missingValue format
    let path ← demand .missingFile path
    let (blocks, buffer) ← readBlocks format path
    if blocks = [] then fail (.usage (.noData path))
    placeBlocks format start buffer .zero addressCount 0 blocks

def loadText (text : String) (format : Option (Argument InputFormat))
    (start : Option (Argument Nat)) : Session Loaded := do
  if format.isSome then fail (.usage .textWithFormat)
  match start with
  | none => fail (.usage .textWithoutStart)
  | some start =>
    let payload ← lift .scan (Scan.byteText text)
    if payload = [] then fail (.usage .emptyText)
    let start ← demand .missingValue start
    let image ← lift .image (Image.zero.writeData start payload)
    return ⟨image, start, payload.length⟩

def load (options : ConvertOptions) : Session Loaded :=
  match options.input with
  | .file path => loadFile path options.format options.start
  | .text text => loadText text options.format options.start

/-- The first address to write and how many. The count is looked at later than the bounds. -/
def extentOf (loaded : Loaded) (extent : Option Extent) : Session (Int × Argument Int) :=
  match extent with
  | none => return (loaded.start, .value loaded.count)
  | some (.range bounds) => do
    let (start, last) ← demand .missingRange bounds
    return (start, .value ((last : Int) - start + 1))
  | some (.count .void) => return (loaded.start, .void)
  | some (.count (.value count)) => return (loaded.start, .value count)

def convert (options : ConvertOptions) : Session Unit := do
  let loaded ← load options
  let (start, count) ← extentOf loaded options.extent
  let target ← demand .missingValue options.target
  let cells ← lift .image (loaded.image.readCells start (← demand .missingValue count))
  let content := target.write cells start
  match options.output, content with
  | none, .text text => print (String.ofList text)
  | none, .bytes _ => fail (.usage (.noOutput target.name))
  | some path, content =>
    let path ← demand .missingFile path
    createFile path
    match content with
    | .text text => appendFile path (Text.encodeUtf8 text)
    | .bytes bytes => appendFile path bytes
  report (target.writeLog cells start)

end MemoryBoard.CommandLine
