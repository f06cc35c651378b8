import MemoryBoard.Proofs.CommandLine.Command
import MemoryBoard.Proofs.CommandLine.Convert
import MemoryBoard.Proofs.Image

set_option autoImplicit false

namespace MemoryBoard.CommandLine

open Session

/-- What a conversion reads and what it writes. -/
structure Conversion where
  format : InputFormat
  file : Bytes
  blocks : List Block
  buffer : Array UInt8
  /-- Where the first address of the file goes. -/
  origin : Nat
  /-- The data byte at each address once the blocks are placed. -/
  memory : Nat → UInt8
  first : Nat
  count : Nat
  target : Format
  content : Format.Content

namespace Conversion

variable (conversion : Conversion)

/-- Every address of a block has the byte that was loaded for it, and every other address zero. -/
structure Loads (options : ConvertOptions) (world : World) : Prop where
  format : options.format = some (.value conversion.format)
  file : ∃ path, options.input = .file (.value path) ∧ world.tree.read path = .ok conversion.file
  load : conversion.format.load? conversion.file = some (conversion.blocks, conversion.buffer)
  origin : Origin conversion.format options.start conversion.origin
  covered : ∀ block ∈ conversion.blocks, ∀ i < block.count,
    conversion.memory (conversion.origin + block.start + i) =
      conversion.format.byteAt conversion.buffer (block.start + i)
  bare : ∀ address,
    (∀ block ∈ conversion.blocks, ¬ block.CoversFrom conversion.origin address) →
      conversion.memory address = 0
  /-- Of the records of a hex file the last one that covers an address decides. -/
  latest : ∀ dialect, conversion.format = .records dialect →
    ∃ found, HexRecord.records dialect addressCount (.ofFile conversion.file) = .ok found ∧
      ∀ address, conversion.memory address =
        (latest? (HexRecord.Record.byteAt? address) found).getD 0

/-- Whether the addresses to write are the ones that the options ask for. -/
def Spans : Option Extent → Prop
  | none =>
    Block.IsLowest conversion.origin conversion.blocks conversion.first ∧
      Block.IsPastHighest conversion.origin conversion.blocks (conversion.first + conversion.count)
  | some (.range (.value (first, last))) =>
    conversion.first = first ∧ conversion.first + conversion.count = last + 1
  | some (.count (.value total)) =>
    Block.IsLowest conversion.origin conversion.blocks conversion.first ∧ conversion.count = total
  | some (.range .void) => False
  | some (.count .void) => False

/-- The data bytes to write, one for each address. -/
def data : Bytes :=
  (List.range conversion.count).map fun i => conversion.memory (conversion.first + i)

/-- The writer of the target gets these bytes, and what it makes of them is all that comes out. -/
structure Writes (options : ConvertOptions) (world after : World) : Prop where
  target : options.target = .value conversion.target
  content : ∃ cells : Bytes, cells.length = 2 * conversion.count ∧
    cells.evens = conversion.data ∧
    conversion.content = conversion.target.write cells conversion.first
  delivered : Delivered options.output conversion.content world after

/-- The reader of the target finds one block with the bytes that were written, at the same address
if the format keeps it. -/
def ReadsBack : Prop :=
  ∀ format, conversion.target = .file format →
    let start := if format.isAddressed then conversion.first else 0
    ∃ buffer,
      format.load? (InputFormat.fileOf conversion.content) =
        some ([⟨start, conversion.count, format.isAddressed⟩], buffer) ∧
      ∀ i < conversion.count,
        format.byteAt buffer (start + i) = conversion.memory (conversion.first + i)

/-- Whole cells come out as they went in. -/
def Copies (extent : Option Extent) : Prop :=
  conversion.format = .flat .cells → conversion.target = .file (.flat .cells) → extent = none →
    conversion.content = .bytes conversion.file

end Conversion

section

variable {yaml : Yaml.EventSource} {format : InputFormat} {blocks : List Block}
  {buffer : Array UInt8} {world after : World}

/-- Cells that were loaded from a file are read out again as they stand there. -/
theorem readCells_loaded {file : Bytes} {start : Option (Argument Nat)} {loaded : Loaded}
    (load : (InputFormat.flat .cells).load? file = some (blocks, buffer))
    (ended : Ends (placeBlocks (.flat .cells) start buffer .zero addressCount 0 blocks) world loaded
      after) : loaded.image.readCells loaded.start loaded.count = .ok file := by
  obtain ⟨unit, decoded, rfl, rfl⟩ := InputFormat.load?_flat.mp load
  obtain ⟨rfl, even, fits⟩ := FlatFile.decode_cells decoded
  have room : 0 + file.length ≤ (InputFormat.flat .cells).blank.size := by
    rw [InputFormat.blank, Array.size_replicate, Nat.zero_add]
    exact fits
  have payload := Image.extract_writeConsecutive room
  have holds : (Format.file (.flat .cells)).holdsCells = true := rfl
  have stop : file.length / 2 * 2 = 0 + file.length := by omega
  simp only [placeBlocks, ends_lift_bind, ends_demand_bind, ends_report_bind, ends_pure] at ended
  obtain ⟨_, started, place, rfl, image, success, rfl, _⟩ := ended
  simp only [placeBlock, holds, Bool.false_eq_true, ↓reduceIte, Nat.zero_mul,
    Nat.zero_add] at success
  rw [stop, payload] at success
  obtain ⟨_, ⟨_, _, top⟩, _⟩ := Image.writeCells_eq_ok.mp success
  have nonempty : 0 < file.length / 2 :=
    (InputFormat.load?_sound load).nonempty _ (List.mem_singleton_self _)
  have start : min (addressCount : Int) place = place := by omega
  have count :
      max 0 ((place : Int) + (file.length / 2 : Nat)) - place = (file.length / 2 : Nat) := by
    omega
  simp only [start, count]
  exact Image.readCells_writeCells success

/-- In the image of a hex file the last record that covers an address decides. -/
theorem Placed.dataAt_records {dialect : HexRecord.Dialect} {found : List HexRecord.Record}
    {loaded : Loaded}
    (placed : Placed (.records dialect)
      (HexRecord.placeAll (InputFormat.records dialect).blank found) 0 (HexRecord.blocksOf found)
      .zero addressCount 0 loaded)
    (sound : ∀ record ∈ found, record.Placed addressCount) (address : Nat) :
    loaded.image.dataAt address = (latest? (HexRecord.Record.byteAt? address) found).getD 0 := by
  have covers := HexRecord.blocksOf_covers sound address
  have same (block : Block) : block.CoversFrom 0 address ↔ block.Covers address := by
    simp only [Block.CoversFrom, Block.Covers, Nat.zero_add]
  by_cases covered : ∃ block ∈ HexRecord.blocksOf found, block.CoversFrom 0 address
  · obtain ⟨block, member, within⟩ := covered
    have inside : address < addressCount := by
      have bound := placed.inside block member
      obtain ⟨_, _⟩ := within
      omega
    rw [placed.covered address ⟨block, member, within⟩, Nat.sub_zero,
      InputFormat.byteAt_records inside]
  · have free : ∀ block ∈ HexRecord.blocksOf found, ¬ block.CoversFrom 0 address :=
      fun block member within => covered ⟨block, member, within⟩
    have nothing : latest? (HexRecord.Record.byteAt? address) found = none := by
      rw [← Option.not_isSome_iff_eq_none, ← covers]
      rintro ⟨block, member, within⟩
      exact free block member ((same block).mpr within)
    rw [placed.bare address free, nothing, Image.dataAt_zero, Option.getD_none]

/-- The addresses to write are some at least, and the right ones. -/
theorem Loaded.Extends.spans {loaded : Loaded} {start count : Int} {extent : Option Extent}
    (extends_ : loaded.Extends start count extent) {conversion : Conversion}
    (starts : conversion.first = start.toNat) (counts : conversion.count = count.toNat)
    {lowest size : Nat} (lowestIs : loaded.start = lowest) (sizeIs : loaded.count = size)
    (positive : 0 < size) (low : Block.IsLowest conversion.origin conversion.blocks lowest)
    (high : Block.IsPastHighest conversion.origin conversion.blocks (lowest + size))
    (proper : ∀ given, extent = some given → given.Proper) :
    0 < conversion.count ∧ conversion.Spans extent := by
  cases extent with
  | none =>
    obtain ⟨rfl, rfl⟩ := extends_
    have begins : conversion.first = lowest := by omega
    have all : conversion.count = size := by omega
    rw [Conversion.Spans, begins, all]
    exact ⟨positive, low, high⟩
  | some extent =>
    have some := proper extent rfl
    cases extent with
    | range bounds =>
      cases bounds with
      | void => exact extends_.elim
      | value bounds =>
        obtain ⟨rfl, rfl⟩ := extends_
        have order : bounds.1 ≤ bounds.2 := some
        exact ⟨by omega, by omega, by omega⟩
    | count argument =>
      cases argument with
      | void => exact extends_.elim
      | value total =>
        obtain ⟨rfl, rfl⟩ := extends_
        have begins : conversion.first = lowest := by omega
        have asked : 0 < total := some
        rw [Conversion.Spans, begins]
        exact ⟨by omega, low, by omega⟩

variable {conversion : Conversion} {options : ConvertOptions}

theorem Placed.loads {loaded : Loaded}
    (placed : Placed conversion.format conversion.buffer conversion.origin conversion.blocks .zero
      addressCount 0 loaded)
    (memory : conversion.memory = loaded.image.dataAt)
    (formatted : options.format = some (.value conversion.format))
    (found : ∃ path, options.input = .file (.value path) ∧
      world.tree.read path = .ok conversion.file)
    (load : conversion.format.load? conversion.file = some (conversion.blocks, conversion.buffer))
    (origin : Origin conversion.format options.start conversion.origin) :
    conversion.Loads options world := by
  refine ⟨formatted, found, load, origin, ?_, ?_, ?_⟩
  · intro block member i within
    have covers : block.CoversFrom conversion.origin (conversion.origin + block.start + i) := by
      constructor <;> omega
    have offset : conversion.origin + block.start + i - conversion.origin = block.start + i := by
      omega
    rw [memory, placed.covered _ ⟨block, member, covers⟩, offset]
  · intro address free
    rw [memory, placed.bare address free, Image.dataAt_zero]
  · intro dialect records
    rw [records] at load origin placed
    obtain ⟨found, accepted, blocks, buffer⟩ := InputFormat.load?_records.mp load
    rw [blocks, buffer, origin.2] at placed
    refine ⟨found, accepted, fun address => ?_⟩
    rw [memory]
    exact placed.dataAt_records (HexRecord.records_placed accepted) address

/-- The reader of a format gets back what its writer was given. -/
theorem Conversion.readsBack {cells : Bytes} (length : cells.length = 2 * conversion.count)
    (data : cells.evens = conversion.data)
    (content : conversion.content = conversion.target.write cells conversion.first)
    (some : 0 < conversion.count) (room : conversion.first + conversion.count ≤ addressCount) :
    conversion.ReadsBack := by
  intro format target start
  obtain ⟨buffer, loads, bytes⟩ := format.load?_write length some room
  rw [content, target]
  refine ⟨buffer, loads, fun i within => ?_⟩
  have here : (List.range conversion.count)[i]? = Option.some i := List.getElem?_range within
  rw [bytes i within, data, Conversion.data, List.getElem?_map, here]
  rfl

/-- Whatever goes into a conversion comes out of it, and can be read back. -/
theorem convert_keeps {words : List String} {input : Argument Path}
    (read : readCommand words = .use (.convert options)) (given : options.input = .file input)
    (success : run yaml words world = (.success, after)) :
    ∃ conversion : Conversion, conversion.Loads options world ∧ conversion.Spans options.extent ∧
      conversion.Writes options world after ∧ conversion.ReadsBack ∧
      conversion.Copies options.extent := by
  have ended := (run_eq_success read).mp success
  simp only [Command.run, ends_report_bind] at ended
  obtain ⟨loaded, start, count, target, cells, between, load, settled, chosen, cut, delivered⟩ :=
    convert_ends ended
  obtain ⟨format, file, blocks, buffer, origin, formatted, ⟨path, rfl, found⟩, loads, chosenOrigin,
    some, placed, ⟨_, placing⟩, log, rfl⟩ := loadFile_ends (load_file_ends given load)
  have sound := InputFormat.load?_sound loads
  obtain ⟨lowest, size, lowestIs, sizeIs, positive, low, high⟩ := placed.span sound some
  obtain ⟨⟨above, _, inside⟩, length, _⟩ := Image.readCells_eq_ok cut
  have data := Image.evens_readCells cut
  have base : target.write cells start = target.write cells (start.toNat : Nat) := by
    congr 1
    omega
  let conversion : Conversion := ⟨format, file, blocks, buffer, origin, loaded.image.dataAt,
    start.toNat, count.toNat, target, target.write cells start⟩
  have spans : 0 < conversion.count ∧ conversion.Spans options.extent :=
    settled.spans rfl rfl lowestIs sizeIs positive low high fun extent => readCommand_extent read
  have room : conversion.first + conversion.count ≤ addressCount := by
    simp only [conversion]
    omega
  refine ⟨conversion, ?_, spans.2, ?_, ?_, ?_⟩
  · exact Placed.loads placed rfl formatted ⟨path, given, found⟩ loads chosenOrigin
  · exact ⟨chosen, ⟨cells, length, data, base⟩, delivered⟩
  · exact Conversion.readsBack length data base spans.1 room
  · intro cellsIn cellsOut whole
    simp only [conversion] at cellsIn cellsOut ⊢
    subst cellsIn cellsOut
    rw [whole] at settled
    obtain ⟨rfl, rfl⟩ := settled
    rw [readCells_loaded loads placing] at cut
    cases cut
    rfl

end

/-- Two records of which the later one replaces a byte of the other and starts a block of its
own. -/
def overlappingFile : Bytes :=
  Text.encodeUtf8 [
    ':', '0', '2', '0', '0', '0', '1', '0', '0', 'A', 'A', 'B', 'B', '9', '8', '\n',
    ':', '0', '1', '0', '0', '0', '2', '0', '0', 'C', 'C', '3', '1', '\n',
    ':', '0', '0', '0', '0', '0', '0', '0', '1', 'F', 'F', '\n']

theorem convert_keeps_overlapping :
    let words := ["convert", "-i", "a", "-f", "ihex", "-t", "bin", "-o", "b"]
    let options : ConvertOptions := ⟨.file (.value ⟨0, ["a"]⟩), some (.value (.records .intel)),
      none, none, .value (.file (.flat .plain)), some (.value ⟨0, ["b"]⟩)⟩
    let world : World := ⟨⟨[(.ofNames ["a"], overlappingFile)], []⟩, [], #[]⟩
    ∃ after, readCommand words = .use (.convert options) ∧
      options.input = .file (.value ⟨0, ["a"]⟩) ∧
      run Yaml.fileEvents words world = (.success, after) ∧
      ∃ conversion : Conversion, conversion.Loads options world ∧
        conversion.Spans options.extent ∧ conversion.Writes options world after ∧
        conversion.ReadsBack ∧ conversion.Copies options.extent := by
  intro words options world
  have read : readCommand words = .use (.convert options) := rfl
  have found : world.tree.read ⟨0, ["a"]⟩ = .ok overlappingFile := by decide +kernel
  have created : world.tree.create ⟨0, ["b"]⟩ = .ok (world.tree.put (.ofNames ["b"]) []) := rfl
  have records : HexRecord.records .intel addressCount (.ofFile overlappingFile) =
      .ok [⟨1, [0xaa, 0xbb]⟩, ⟨2, [0xcc]⟩] := rfl
  have loads := InputFormat.load?_records.mpr ⟨_, records, rfl, rfl⟩
  have origin : Origin (.records .intel) options.start 0 := ⟨rfl, rfl⟩
  obtain ⟨after, success⟩ := convert_succeeds read rfl rfl rfl rfl rfl found loads (by decide)
    origin (by decide) created
  exact ⟨after, read, rfl, success, convert_keeps read rfl success⟩

end MemoryBoard.CommandLine
