import MemoryBoard.Proofs.CommandLine.Convert
import MemoryBoard.Proofs.CommandLine.Failure
import MemoryBoard.Proofs.Config.Packed
import MemoryBoard.Proofs.MemoryMap.Layout
import MemoryBoard.Proofs.Uf2.Flash

set_option autoImplicit false

namespace MemoryBoard.CommandLine

open Session

/-- Setting up succeeds and leaves a flash file with some blocks. -/
def SetsUp (yaml : Yaml.EventSource) (options : SetupOptions) (world : World)
    (blocks : List Uf2.Block) : Prop :=
  ∃ output after file, options.output = .value output ∧
    Ends ((Command.setup options).run yaml) world () after ∧ after.tree.read output = .ok file ∧
    Uf2.read file = .ok blocks

/-- Setting up fails for a text that has no UTF-8 form, and changes no file. -/
def Unencodable (yaml : Yaml.EventSource) (options : SetupOptions) (world : World) : Prop :=
  ∃ log, Fails ((Command.setup options).run yaml) world (.defect .unencodable) { world with log }

/-- The image that an option for a memory map leads to. -/
inductive MapGiven (yaml : Yaml.EventSource) (world : World) :
    Option (Argument Path) → Option Image → Prop where
  | absent : MapGiven yaml world none none
  | given {path : Path} {image : Image} : MapBuilds yaml world path image →
      MapGiven yaml world (some (.value path)) (some image)

/-- The record that an option for settings leads to. -/
inductive ConfigGiven (yaml : Yaml.EventSource) (world : World) :
    Option (Argument Path) → Bytes → Prop where
  | absent : ConfigGiven yaml world none []
  | given {path : Path} {config : BoardConfig} {record : Bytes} :
      ConfigReads yaml world path config → config.pack = .ok record →
      ConfigGiven yaml world (some (.value path)) record

/-- What is put into the flash, and where. -/
def flashData (image : Option Image) (record : Bytes) : Bytes × Int :=
  match image with
  | none => (record, configAddress)
  | some image => (image.toBytes ++ record, memoryMapAddress)

variable {yaml : Yaml.EventSource} {world : World} {options : SetupOptions} {path : Path}

theorem setupData_ends {image : Option Image} {record data : Bytes} {address : Int}
    (map : MapGiven yaml world options.memoryMap image)
    (config : ConfigGiven yaml world options.config record)
    (placed : flashData image record = (data, address)) (log : Array LogEntry) :
    ∃ after, Ends (setupData yaml options) { world with log } (data, address)
      { world with log := after } := by
  obtain ⟨memoryMap, configFile, output⟩ := options
  simp only at map config
  rw [← placed]
  unfold setupData
  cases map with
  | absent =>
    cases config with
    | absent => exact ⟨log, ends_pure.mpr ⟨rfl, rfl⟩⟩
    | @given path settings record reads packed =>
      obtain ⟨after, read⟩ := reads.ends log
      refine ⟨after, ?_⟩
      simp only [pure_bind, ends_demand_bind]
      refine ⟨path, rfl, ends_bind.mpr ⟨settings, _, read, ?_⟩⟩
      simp only [packed]
      exact ends_pure.mpr ⟨rfl, rfl⟩
  | @given place image builds =>
    obtain ⟨segments, between, built, read, build⟩ := builds.ends log
    cases config with
    | absent =>
      refine ⟨built, ?_⟩
      simp only [ends_demand_bind]
      exact ⟨place, rfl, ends_bind.mpr ⟨segments, _, read,
        ends_bind.mpr ⟨image, _, build, ends_pure.mpr ⟨rfl, rfl⟩⟩⟩⟩
    | @given path settings record reads packed =>
      obtain ⟨after, readSettings⟩ := reads.ends built
      refine ⟨after, ?_⟩
      simp only [ends_demand_bind]
      refine ⟨place, rfl, ends_bind.mpr ⟨segments, _, read,
        ends_bind.mpr ⟨image, _, build, ?_⟩⟩⟩
      simp only [pure_bind, ends_demand_bind]
      refine ⟨path, rfl, ends_bind.mpr ⟨settings, _, readSettings, ?_⟩⟩
      simp only [packed]
      exact ends_pure.mpr ⟨rfl, rfl⟩

/-- Settings that cannot be packed are no data for the flash, with a memory map and without. -/
theorem setupData_fails {image : Option Image} {config : BoardConfig} {cause : Defect}
    {map : Option (Argument Path)} (given : MapGiven yaml world map image)
    (reads : ConfigReads yaml world path config) (failed : config.pack = .error cause)
    (output : Argument Path) (log : Array LogEntry) : ∃ after,
      Fails (setupData yaml ⟨map, some (.value path), output⟩) { world with log } (.defect cause)
        { world with log := after } := by
  have lifts {next : Bytes → Session (Bytes × Int)} (before : World) :
      Fails (lift .defect config.pack >>= next) before (.defect cause) before :=
    fails_bind.mpr (Or.inl (fails_lift.mpr ⟨cause, failed, rfl, rfl⟩))
  unfold setupData
  cases given with
  | absent =>
    obtain ⟨after, read⟩ := reads.ends log
    simp only [demand, pure_bind]
    exact ⟨after, fails_bind.mpr (Or.inr ⟨config, _, read, lifts _⟩)⟩
  | @given place image builds =>
    obtain ⟨segments, between, built, read, build⟩ := builds.ends log
    obtain ⟨after, settled⟩ := reads.ends built
    refine ⟨after, ?_⟩
    simp only [demand, pure_bind]
    refine fails_bind.mpr (Or.inr ⟨segments, _, read, ?_⟩)
    refine fails_bind.mpr (Or.inr ⟨image, _, build, ?_⟩)
    exact fails_bind.mpr (Or.inr ⟨config, _, settled, lifts _⟩)

/-- Nor does setting up with them get any further. -/
theorem unencodable {image : Option Image} {config : BoardConfig} {output : Argument Path}
    {map : Option (Argument Path)} (given : MapGiven yaml world map image)
    (reads : ConfigReads yaml world path config) (failed : config.pack = .error .unencodable) :
    Unencodable yaml ⟨map, some (.value path), output⟩ world := by
  obtain ⟨after, fails⟩ := setupData_fails given reads failed output
    (world.log.push ⟨"cli", "command setup"⟩)
  have something : ¬ (map.isNone = true ∧ (some (Argument.value path)).isNone = true) := by simp
  refine ⟨after, fails_report_bind.mpr ?_⟩
  simp only [setup, something, ↓reduceIte]
  exact fails_bind.mpr (Or.inl fails)

theorem Unencodable.not_setsUp (fails : Unencodable yaml options world) (blocks : List Uf2.Block) :
    ¬ SetsUp yaml options world blocks := by
  obtain ⟨log, failed⟩ := fails
  rintro ⟨_, after, _, _, ended, _⟩
  cases failed.symm.trans ended

theorem setup_ends {data file : Bytes} {address : Int} {output : Path} {tree : Files.Tree}
    {blocks : Nat} {log between : Array LogEntry}
    (given : options.memoryMap.isSome ∨ options.config.isSome)
    (read : Ends (setupData yaml options) { world with log } (data, address)
      { world with log := between })
    (target : options.output = .value output) (created : world.tree.create output = .ok tree)
    (written : Uf2.write data address = (file, some blocks)) :
    ∃ after, Ends (setup yaml options) { world with log } ()
      { world with tree := tree.append output file, log := after } := by
  have something : ¬ (options.memoryMap.isNone = true ∧ options.config.isNone = true) := by
    simp only [← Option.not_isSome]
    rcases given with given | given <;> simp [given]
  unfold setup
  simp only [something, ↓reduceIte, target]
  let entries : List LogEntry := Uf2.writeLog data address ++
    [⟨"cli", s!"setup: {data.length} bytes in {blocks} blocks to {output.text.shown}"⟩]
  refine ⟨entries.foldl Array.push between, ?_⟩
  apply ends_bind.mpr
  refine ⟨(data, address), _, read, ?_⟩
  simp only [written, ends_demand_bind]
  refine ⟨output, rfl, ?_⟩
  apply ends_bind.mpr
  refine ⟨(), _, ends_createFile.mpr ⟨tree, created, rfl⟩, ?_⟩
  apply ends_bind.mpr
  refine ⟨(), _, ends_appendFile.mpr rfl, ?_⟩
  simp only [ends_report_bind, ends_report, entries, List.foldl_append]

/-- Setting up succeeds where the data find room in the flash and the output can be created. -/
theorem setsUp {data : Bytes} {address : Int} {output : Path}
    (given : options.memoryMap.isSome ∨ options.config.isSome)
    (read : ∀ log, ∃ after,
      Ends (setupData yaml options) { world with log } (data, address) { world with log := after })
    (target : options.output = .value output)
    (creatable : ∃ tree, world.tree.create output = .ok tree) (positive : 0 ≤ address)
    (room : address + data.length ≤ 0x100000000) :
    SetsUp yaml options world (Uf2.carriers data address) := by
  obtain ⟨tree, created⟩ := creatable
  obtain ⟨_, file, written, readable⟩ := Uf2.write_whole positive room
  obtain ⟨between, read⟩ :=
    read (world.log.push ⟨"cli", s!"command {(Command.setup options).name}"⟩)
  obtain ⟨after, ended⟩ := setup_ends given read target created written
  refine ⟨output, { world with tree := tree.append output file, log := after }, file, target, ?_,
    Files.Tree.read_append_create created file, readable⟩
  rw [Command.run, ends_report_bind]
  exact ended

/-- Blocks for an image and a record behind it, and blocks for each of them alone, that come to the
same. -/
structure Composed (image record : Bytes) (joint ofMap ofConfig : List Uf2.Block) : Prop where
  placements : joint.map Uf2.Block.placement =
    ofMap.map Uf2.Block.placement ++ ofConfig.map Uf2.Block.placement
  flash : ∀ memory, Uf2.flash memory joint = Uf2.flash (Uf2.flash memory ofMap) ofConfig ∧
    Uf2.flash memory joint = Uf2.flash (Uf2.flash memory ofConfig) ofMap
  apart : joint.Pairwise fun first second => first.target + first.payload.length ≤ second.target
  numbered : ∀ (index : Nat) (block : Uf2.Block), joint[index]? = some block →
    block.number = index ∧ block.total = joint.length
  payload : ∃ zeros < 256,
    joint.flatMap Uf2.Block.payload = image ++ record ++ List.replicate zeros 0

theorem length_toBytes (image : Image) : image.toBytes.length = 131072 := by
  rw [Image.toBytes, Array.length_toList, image.size_cells]
  rfl

theorem composed (image : Image) {record : Bytes} (length : record.length = 370) :
    Composed image.toBytes record (Uf2.carriers (image.toBytes ++ record) memoryMapAddress)
      (Uf2.carriers image.toBytes memoryMapAddress) (Uf2.carriers record configAddress) := by
  have size := length_toBytes image
  have whole : (image.toBytes ++ record).length = 131442 := by
    rw [List.length_append, size, length]
  have map : memoryMapAddress = 0x101c0000 := rfl
  have config : configAddress = 0x101e0000 := rfl
  have carried : Uf2.Carried (image.toBytes ++ record) memoryMapAddress
      (Uf2.carriers (image.toBytes ++ record) memoryMapAddress) :=
    (Uf2.write_whole (by omega) (by omega)).1
  have mapCarried : Uf2.Carried image.toBytes memoryMapAddress
      (Uf2.carriers image.toBytes memoryMapAddress) :=
    (Uf2.write_whole (by omega) (by omega)).1
  have configCarried : Uf2.Carried record configAddress (Uf2.carriers record configAddress) :=
    (Uf2.write_whole (by omega) (by omega)).1
  have count : (Uf2.carriers (image.toBytes ++ record) memoryMapAddress).length = 514 := by
    rw [Uf2.length_carriers, whole]
  have behind : memoryMapAddress + image.toBytes.length = configAddress := by omega
  have placements : (Uf2.carriers (image.toBytes ++ record) memoryMapAddress).map
        Uf2.Block.placement =
      (Uf2.carriers image.toBytes memoryMapAddress).map Uf2.Block.placement ++
        (Uf2.carriers record configAddress).map Uf2.Block.placement := by
    rw [← behind]
    exact Uf2.placement_carriers_append (by omega)
  have onward (memory : Nat → UInt8) :
      Uf2.flash memory (Uf2.carriers (image.toBytes ++ record) memoryMapAddress) =
        Uf2.flash (Uf2.flash memory (Uf2.carriers image.toBytes memoryMapAddress))
          (Uf2.carriers record configAddress) := by
    unfold Uf2.flash
    rw [placements, List.foldl_append]
  refine ⟨placements, fun memory => ⟨onward memory, ?_⟩, carried.apart, ?_, ?_⟩
  · rw [onward]
    -- The image ends where the settings begin.
    have blocks : (Uf2.carriers image.toBytes memoryMapAddress).length = 512 := by
      rw [Uf2.length_carriers, size]
    refine Uf2.flash_comm 0x101e0000 (fun block member => ?_) (fun block member => ?_)
    · have bounds := (mapCarried.bounds block member).2
      omega
    · have bounds := (configCarried.bounds block member).1
      omega
  · intro index block found
    obtain ⟨_, _, _, number, total, _⟩ := carried.fields index block found
    rw [whole] at total
    exact ⟨number, by omega⟩
  · refine ⟨142, by omega, ?_⟩
    rw [carried.payload, count, List.take_of_length_le (by omega), Bytes.padded, whole]

/-- Setting up with a memory map and with settings leaves the blocks for the one and then those for
the other, as setting up with each of them alone does. That is so if the texts of the settings have
a UTF-8 form: otherwise there is no record of them and setting up fails, with a memory map and
without. -/
theorem setup_composed {mapFile configFile : Path} {image : Image} {config : BoardConfig}
    (builds : MapBuilds yaml world mapFile image)
    (reads : ConfigReads yaml world configFile config) :
    (config.Encodable → ∃ (record : Bytes) (joint ofMap ofConfig : List Uf2.Block),
      config.pack = .ok record ∧ image.toBytes.length = 131072 ∧ record.length = 370 ∧
      Composed image.toBytes record joint ofMap ofConfig ∧
      ∀ output, (∃ tree, world.tree.create output = .ok tree) →
        SetsUp yaml ⟨some (.value mapFile), some (.value configFile), .value output⟩ world joint ∧
        SetsUp yaml ⟨some (.value mapFile), none, .value output⟩ world ofMap ∧
        SetsUp yaml ⟨none, some (.value configFile), .value output⟩ world ofConfig) ∧
    (¬ config.Encodable → ∀ output,
      Unencodable yaml ⟨some (.value mapFile), some (.value configFile), output⟩ world ∧
      Unencodable yaml ⟨none, some (.value configFile), output⟩ world) := by
  have packable : config.Packable := by
    obtain ⟨bytes, state, _, read, same⟩ := reads
    have packable := Config.read_packable Config.packable_default (yaml bytes)
    rwa [read, same] at packable
  have map : memoryMapAddress = 0x101c0000 := rfl
  have settings : configAddress = 0x101e0000 := rfl
  constructor
  · intro encodable
    have packed := BoardConfig.pack_eq_ok.mpr ⟨encodable, packable, rfl⟩
    have length := BoardConfig.length_record config
    have size := length_toBytes image
    have whole : (image.toBytes ++ config.record).length = 131442 := by
      rw [List.length_append, size, length]
    refine ⟨config.record, _, _, _, packed, size, length, composed image length,
      fun output creatable => ⟨?_, ?_, ?_⟩⟩
    · exact setsUp (Or.inl rfl) (setupData_ends (.given builds) (.given reads packed) rfl) rfl
        creatable (by omega) (by omega)
    · have alone : flashData (some image) [] = (image.toBytes, memoryMapAddress) := by
        rw [flashData, List.append_nil]
      exact setsUp (Or.inl rfl) (setupData_ends (.given builds) .absent alone) rfl
        creatable (by omega) (by omega)
    · exact setsUp (Or.inr rfl) (setupData_ends .absent (.given reads packed) rfl) rfl
        creatable (by omega) (by omega)
  · intro surrogate output
    have failed := (BoardConfig.pack_eq_unencodable packable).mpr surrogate
    exact ⟨unencodable (.given builds) reads failed, unencodable .absent reads failed⟩

/-- A memory map of the upper half of the memory. -/
def halfMap : Bytes :=
  Text.encodeUtf8 "start: 0x8000\nend: 0xffff\nfill: 0xea\nenabled: true\n".toList

/-- The map in a file, and settings in another one. -/
def boardWorld (settings : String) : World :=
  ⟨⟨[(.ofNames ["half"], halfMap), (.ofNames ["board"], Text.encodeUtf8 settings.toList)], []⟩,
    [], #[]⟩

/-- The segment of that map. -/
def halfSegment : Segment :=
  { start := some 0x8000, last := some 0xffff, enabled := some true, fill := some 0xea,
    count := 0x8000 }

theorem exists_build_halfSegment (files : Layout.Setting) :
    ∃ image, Layout.build files [halfSegment] = .ok image := by
  have covers : Image.Covers 0x8000 0x8000 := by decide
  have filled : Image.Covers 0x8000 (0xffff - 0x8000 + 1) := by decide
  refine (Layout.placeFrom_isOk _ 0).mpr (List.forall_mem_singleton.mpr ⟨0x8000, ?_⟩)
  exact ⟨rfl, fun fill _ => ⟨0xffff, rfl, filled⟩, nofun, nofun, covers⟩

theorem mapBuilds_half {world : World} (found : world.tree.read ⟨0, ["half"]⟩ = .ok halfMap)
    (accepted : (MemoryMap.read ⟨some ⟨0, []⟩, world.tree.size⟩ (yaml halfMap)).2 = none)
    (segments : (MemoryMap.read ⟨some ⟨0, []⟩, world.tree.size⟩ (yaml halfMap)).1.segments.toList =
      [halfSegment]) : ∃ image, MapBuilds yaml world ⟨0, ["half"]⟩ image := by
  obtain ⟨image, built⟩ := exists_build_halfSegment ⟨none, world.tree.read⟩
  exact ⟨image, halfMap, _, found, Prod.ext rfl accepted, segments ▸ built⟩

theorem configReads_board {settings : String}
    (accepted : (Config.read {} (yaml (Text.encodeUtf8 settings.toList))).2 = none) :
    ConfigReads yaml (boardWorld settings) ⟨0, ["board"]⟩
      (Config.read {} (yaml (Text.encodeUtf8 settings.toList))).1.config :=
  ⟨_, _, rfl, Prod.ext rfl accepted, rfl⟩

/-- The map and a name for the network, set up together and apart. -/
theorem setup_composed_half :
    let world := boardWorld "wifi:\n  ssid: board\n"
    let map : Argument Path := .value ⟨0, ["half"]⟩
    let settings : Argument Path := .value ⟨0, ["board"]⟩
    let output : Argument Path := .value ⟨0, ["flash"]⟩
    ∃ image config record joint ofMap ofConfig,
      MapBuilds Yaml.fileEvents world ⟨0, ["half"]⟩ image ∧
      ConfigReads Yaml.fileEvents world ⟨0, ["board"]⟩ config ∧ config.wifi.ssid = "board" ∧
      config.pack = .ok record ∧ Composed image.toBytes record joint ofMap ofConfig ∧
      SetsUp Yaml.fileEvents ⟨some map, some settings, output⟩ world joint ∧
      SetsUp Yaml.fileEvents ⟨some map, none, output⟩ world ofMap ∧
      SetsUp Yaml.fileEvents ⟨none, some settings, output⟩ world ofConfig := by
  intro world map settings output
  obtain ⟨image, builds⟩ : ∃ image, MapBuilds Yaml.fileEvents world ⟨0, ["half"]⟩ image :=
    mapBuilds_half (by decide +kernel) (by decide +kernel) (by decide +kernel)
  let config := (Config.read {} (Yaml.fileEvents
    (Text.encodeUtf8 "wifi:\n  ssid: board\n".toList))).1.config
  have reads : ConfigReads Yaml.fileEvents world ⟨0, ["board"]⟩ config :=
    configReads_board (by decide +kernel)
  have named : config.wifi.ssid = "board" := by decide +kernel
  have packed : config.pack = .ok config.record := by decide +kernel
  obtain ⟨composes, _⟩ := setup_composed builds reads
  obtain ⟨record, joint, ofMap, ofConfig, packs, _, _, composed, setsUp⟩ :=
    composes (BoardConfig.pack_eq_ok.mp packed).1
  exact ⟨image, config, record, joint, ofMap, ofConfig, builds, reads, named, packs, composed,
    setsUp ⟨0, ["flash"]⟩ ⟨_, rfl⟩⟩

/-- The map, and a name that is a surrogate: both files can be read, but not set up together. -/
theorem setup_surrogate :
    let world := boardWorld "wifi:\n  ssid: \"\\ud800\"\n"
    let map : Argument Path := .value ⟨0, ["half"]⟩
    let settings : Argument Path := .value ⟨0, ["board"]⟩
    let output : Argument Path := .value ⟨0, ["flash"]⟩
    (∃ image, MapBuilds Yaml.fileEvents world ⟨0, ["half"]⟩ image) ∧
      (∃ config, ConfigReads Yaml.fileEvents world ⟨0, ["board"]⟩ config) ∧
      ∀ blocks, ¬ SetsUp Yaml.fileEvents ⟨some map, some settings, output⟩ world blocks := by
  intro world map settings output
  obtain ⟨image, builds⟩ : ∃ image, MapBuilds Yaml.fileEvents world ⟨0, ["half"]⟩ image :=
    mapBuilds_half (by decide +kernel) (by decide +kernel) (by decide +kernel)
  let config := (Config.read {} (Yaml.fileEvents
    (Text.encodeUtf8 "wifi:\n  ssid: \"\\ud800\"\n".toList))).1.config
  have reads : ConfigReads Yaml.fileEvents world ⟨0, ["board"]⟩ config :=
    configReads_board (by decide +kernel)
  have failed : config.pack = .error .unencodable := by decide +kernel
  exact ⟨⟨image, builds⟩, ⟨config, reads⟩, (unencodable (.given builds) reads failed).not_setsUp⟩

end MemoryBoard.CommandLine
