import MemoryBoard.CommandLine.Run
import MemoryBoard.Proofs.CommandLine.Placement
import MemoryBoard.Proofs.Files.Tree

set_option autoImplicit false

namespace MemoryBoard.CommandLine

open Session

section

variable {yaml : Yaml.EventSource} {format : InputFormat} {blocks : List Block}
  {buffer : Array UInt8} {world after : World}

/-- What reading the blocks of a file reports. -/
def readBlocksLog (format : InputFormat) (file : Bytes) : List LogEntry :=
  match format with
  | .records dialect => HexRecord.readLog dialect addressCount (.ofFile file)
  | .flat layout => layout.readLog (if layout = .cells then imageSize else addressCount) file

theorem readBlocks_ends {path : Path} :
    Ends (readBlocks format path) world (blocks, buffer) after ↔
      ∃ file, world.tree.read path = .ok file ∧ format.load? file = some (blocks, buffer) ∧
        after = { world with log := (readBlocksLog format file).foldl Array.push world.log } := by
  unfold readBlocks
  rw [ends_readFile_bind]
  refine exists_congr fun file => and_congr_right fun _ => ?_
  cases format with
  | records dialect =>
    have blank : (InputFormat.records dialect).blank = Array.replicate addressCount 0 := by
      simp only [InputFormat.blank, InputFormat.stride, Nat.one_mul]
    simp only [ends_report_bind, ends_lift_bind, ends_pure, ← blank,
      InputFormat.load?_records_iff_read, readBlocksLog]
    rcases HexRecord.read dialect (.ofFile file) (InputFormat.records dialect).blank with
      ⟨result, filled⟩
    constructor
    · rintro ⟨_, rfl, same, rfl⟩
      cases same
      exact ⟨rfl, rfl⟩
    · rintro ⟨same, rfl⟩
      cases same
      exact ⟨blocks, rfl, rfl, rfl⟩
  | flat layout =>
    have blank : (InputFormat.flat layout).blank =
        Array.replicate (if layout = .cells then imageSize else addressCount) 0 := by
      cases layout <;> rfl
    simp only [ends_report_bind, ends_lift_bind, ends_pure, ← blank,
      InputFormat.load?_flat_iff_read, readBlocksLog]
    rcases layout.read file (InputFormat.flat layout).blank with ⟨result, filled⟩
    constructor
    · rintro ⟨_, rfl, same, rfl⟩
      cases same
      exact ⟨rfl, rfl⟩
    · rintro ⟨same, rfl⟩
      cases same
      exact ⟨blocks, rfl, rfl, rfl⟩

/-- A file is loaded with its blocks placed into an image of zeros. -/
theorem loadFile_ends {path : Argument Path} {choice : Option (Argument InputFormat)}
    {start : Option (Argument Nat)} {loaded : Loaded}
    (ended : Ends (loadFile path choice start) world loaded after) :
    ∃ format file blocks buffer origin, choice = some (.value format) ∧
      (∃ place, path = .value place ∧ world.tree.read place = .ok file) ∧
      format.load? file = some (blocks, buffer) ∧ Origin format start origin ∧ blocks ≠ [] ∧
      Placed format buffer origin blocks .zero addressCount 0 loaded ∧
      (∃ between, Ends (placeBlocks format start buffer .zero addressCount 0 blocks) between loaded
        after) ∧
      ∃ log, after = { world with log } := by
  unfold loadFile at ended
  cases choice with
  | none => exact (ends_fail.mp ended).elim
  | some choice =>
    simp only [ends_demand_bind] at ended
    obtain ⟨format, rfl, place, rfl, ended⟩ := ended
    obtain ⟨⟨blocks, buffer⟩, between, read, ended⟩ := ends_bind.mp ended
    obtain ⟨file, found, load, rfl⟩ := readBlocks_ends.mp read
    have sound := InputFormat.load?_sound load
    cases blocks with
    | nil =>
      simp only [↓reduceIte, ends_fail_bind] at ended
    | cons block rest =>
      simp only [reduceCtorEq, ↓reduceIte] at ended
      have placed := ended
      rw [placeBlocks] at placed
      simp only [ends_lift_bind, ends_demand_bind] at placed
      obtain ⟨_, started, first, rfl, _⟩ := placed
      obtain ⟨origin, chosen, _⟩ := (blockStart_eq_ok sound List.mem_cons_self).mp started
      obtain ⟨placed, log, same⟩ := placeBlocks_ends sound chosen (fun _ member => member) ended
      exact ⟨format, file, block :: rest, buffer, origin, rfl, ⟨place, rfl, found⟩, load, chosen,
        List.cons_ne_nil block rest, placed, ⟨_, ended⟩, log, same⟩

theorem load_file_ends {options : ConvertOptions} {path : Argument Path} {loaded : Loaded}
    (given : options.input = .file path) (ended : Ends (load options) world loaded after) :
    Ends (loadFile path options.format options.start) world loaded after := by
  unfold load at ended
  rw [given] at ended
  exact ended

/-- The addresses to write, as the options settle them for what was loaded. -/
def Loaded.Extends (loaded : Loaded) (start count : Int) : Option Extent → Prop
  | none => start = loaded.start ∧ count = loaded.count
  | some (.range (.value (first, last))) => start = first ∧ count = last - first + 1
  | some (.count (.value total)) => start = loaded.start ∧ count = total
  | some (.range .void) => False
  | some (.count .void) => False

theorem extentOf_ends {loaded : Loaded} {extent : Option Extent} {start count : Int}
    (ended : Ends (extentOf loaded extent) world (start, .value count) after) :
    after = world ∧ loaded.Extends start count extent := by
  cases extent with
  | none =>
    obtain ⟨same, rfl⟩ := ends_pure.mp ended
    cases same
    exact ⟨rfl, rfl, rfl⟩
  | some extent =>
    cases extent with
    | range bounds =>
      simp only [extentOf, ends_demand_bind, ends_pure] at ended
      obtain ⟨⟨first, last⟩, rfl, same, rfl⟩ := ended
      cases same
      exact ⟨rfl, rfl, rfl⟩
    | count argument =>
      cases argument with
      | void =>
        obtain ⟨impossible, _⟩ := ends_pure.mp ended
        cases impossible
      | value total =>
        obtain ⟨same, rfl⟩ := ends_pure.mp ended
        cases same
        exact ⟨rfl, rfl, rfl⟩

/-- Content that goes to the file for it, or is printed. -/
def Delivered (output : Option (Argument Path)) (content : Format.Content) (world after : World) :
    Prop :=
  match output with
  | none => ∃ text, content = .text text ∧ after.tree = world.tree ∧
      after.printed = world.printed ++ String.ofList text
  | some output => ∃ path, output = .value path ∧ after.printed = world.printed ∧
      after.tree.read path = .ok (InputFormat.fileOf content)

theorem convert_ends {options : ConvertOptions} (ended : Ends (convert options) world () after) :
    ∃ loaded start count target cells between,
      Ends (load options) world loaded between ∧ loaded.Extends start count options.extent ∧
      options.target = .value target ∧ loaded.image.readCells start count = .ok cells ∧
      Delivered options.output (target.write cells start) between after := by
  unfold convert at ended
  obtain ⟨loaded, between, load, settled⟩ := ends_bind.mp ended
  obtain ⟨⟨start, argument⟩, same, extent, written⟩ := ends_bind.mp settled
  simp only [ends_demand_bind, ends_lift_bind] at written
  obtain ⟨target, chosen, count, rfl, cells, read, delivered⟩ := written
  obtain ⟨rfl, extends_⟩ := extentOf_ends extent
  refine ⟨loaded, start, count, target, cells, same, load, extends_, chosen, read, ?_⟩
  cases output : options.output with
  | none =>
    cases content : target.write cells start with
    | text text =>
      simp only [output, content, ends_bind, ends_print, ends_report] at delivered
      obtain ⟨_, _, rfl, rfl⟩ := delivered
      exact ⟨text, rfl, rfl, rfl⟩
    | bytes bytes =>
      simp only [output, content, ends_fail_bind] at delivered
  | some output =>
    simp only [output, ends_demand_bind] at delivered
    obtain ⟨path, rfl, delivered⟩ := delivered
    obtain ⟨_, _, create, stored⟩ := ends_bind.mp delivered
    obtain ⟨tree, created, rfl⟩ := ends_createFile.mp create
    cases content : target.write cells start with
    | text text =>
      simp only [content, ends_bind, ends_appendFile, ends_report] at stored
      obtain ⟨_, _, rfl, rfl⟩ := stored
      exact ⟨path, rfl, rfl, Files.Tree.read_append_create created (Text.encodeUtf8 text)⟩
    | bytes bytes =>
      simp only [content, ends_bind, ends_appendFile, ends_report] at stored
      obtain ⟨_, _, rfl, rfl⟩ := stored
      exact ⟨path, rfl, rfl, Files.Tree.read_append_create created bytes⟩

/-- A command line succeeds if the command on it does. -/
theorem run_eq_success {words : List String} {command : Command}
    (read : readCommand words = .use command) :
    run yaml words world = (.success, after) ↔ Ends (command.run yaml) world () after := by
  unfold run
  rw [read]
  simp only
  constructor
  · intro success
    split at success
    · cases success
      assumption
    · split at success <;> cases success
  · intro ended
    split
    · rename_i other result
      rw [show (command.run yaml).run.run world = (.ok (), after) from ended] at result
      cases result
      rfl
    · rename_i failure other result
      rw [show (command.run yaml).run.run world = (.ok (), after) from ended] at result
      cases result

/-- A conversion of all that a file holds succeeds where there is room for it and its output. -/
theorem convert_succeeds {words : List String} {options : ConvertOptions}
    (read : readCommand words = .use (.convert options)) {target : Format} {path output : Path}
    {file : Bytes} {origin : Nat} {tree : Files.Tree}
    (input : options.input = .file (.value path))
    (formatted : options.format = some (.value format))
    (whole : options.extent = none) (chosen : options.target = .value target)
    (stored : options.output = some (.value output)) (found : world.tree.read path = .ok file)
    (loads : format.load? file = some (blocks, buffer)) (some : blocks ≠ [])
    (chosenOrigin : Origin format options.start origin)
    (room : ∀ block ∈ blocks, origin + block.start + block.count ≤ addressCount)
    (created : world.tree.create output = .ok tree) :
    ∃ after, run yaml words world = (.success, after) := by
  simp only [run_eq_success read, Command.run, ends_report_bind]
  generalize [(⟨"cli", _⟩ : LogEntry)].foldl Array.push world.log = begun
  have sound := InputFormat.load?_sound loads
  obtain ⟨loaded, between, placing⟩ := placeBlocks_succeeds sound chosenOrigin
    (fun _ member => member) room .zero addressCount 0
    { world with log := (readBlocksLog format file).foldl Array.push begun }
  obtain ⟨placed, laterLog, same⟩ :=
    placeBlocks_ends sound chosenOrigin (fun _ member => member) placing
  obtain ⟨lowest, size, lowestIs, sizeIs, positive, low, past, last, member, high⟩ :=
    placed.span sound some
  have loadsFile : Ends (load options) { world with log := begun } loaded between := by
    rw [load, input, formatted]
    simp only [loadFile, ends_demand_bind]
    refine ⟨format, rfl, path, rfl, ends_bind.mpr ⟨_, _, readBlocks_ends.mpr
      ⟨file, found, loads, rfl⟩, ?_⟩⟩
    simp only [some, ↓reduceIte]
    exact placing
  have covers : Image.Covers loaded.start loaded.count := by
    have bound := room last member
    refine ⟨by omega, by omega, by omega⟩
  obtain ⟨cells, cut⟩ : ∃ cells, loaded.image.readCells loaded.start loaded.count = .ok cells := by
    unfold Image.readCells
    simp only [covers, ↓reduceIte]
    exact ⟨_, rfl⟩
  have makes : between.tree.create output = .ok tree := by
    rw [same]
    exact created
  have settles : Ends (extentOf loaded options.extent) between (loaded.start, .value loaded.count)
      between := by
    rw [whole]
    exact ends_pure.mpr ⟨rfl, rfl⟩
  refine ⟨{ between with
    tree := tree.append output (InputFormat.fileOf (target.write cells loaded.start))
    log := (target.writeLog cells loaded.start).foldl Array.push between.log },
    ends_bind.mpr ⟨loaded, between, loadsFile, ends_bind.mpr ⟨_, between, settles, ?_⟩⟩⟩
  simp only [ends_demand_bind, ends_lift_bind]
  refine ⟨target, chosen, loaded.count, rfl, cells, cut, ?_⟩
  simp only [stored, ends_demand_bind]
  refine ⟨output, rfl, ends_bind.mpr ⟨(), _, ends_createFile.mpr ⟨tree, makes, rfl⟩, ?_⟩⟩
  cases target.write cells loaded.start with
  | text text => exact ends_bind.mpr ⟨(), _, ends_appendFile.mpr rfl, ends_report.mpr rfl⟩
  | bytes bytes => exact ends_bind.mpr ⟨(), _, ends_appendFile.mpr rfl, ends_report.mpr rfl⟩

end

end MemoryBoard.CommandLine
