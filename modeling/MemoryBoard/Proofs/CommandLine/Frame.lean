import MemoryBoard.Proofs.CommandLine.Failure
import MemoryBoard.Proofs.CommandLine.Setup

set_option autoImplicit false

namespace MemoryBoard

/-- Whether a path ends at a place where a file can be put. -/
def Files.Tree.LeadsTo (tree : Files.Tree) (path : Path) (place : Files.Place) : Prop :=
  ∃ found, tree.find path = .ok found ∧ found.IsPlace place

namespace CommandLine

/-- Whether a tree has only a file in some place that another one has not, or not as it is. -/
structure ChangedOnly (before after : Files.Tree) (mayChange : Files.Place → Prop) : Prop where
  directories : after.directories = before.directories
  files : ∀ place, after.content? place ≠ before.content? place → mayChange place

theorem ChangedOnly.refl (tree : Files.Tree) (mayChange : Files.Place → Prop) :
    ChangedOnly tree tree mayChange :=
  ⟨rfl, fun _ changed => absurd rfl changed⟩

theorem directories_put (tree : Files.Tree) (place : Files.Place) (content : Bytes) :
    (tree.put place content).directories = tree.directories := by
  unfold Files.Tree.put
  split <;> rfl

/-- Creating a file and writing to it changes the file alone. -/
theorem changedOnly_append_create {tree created : Files.Tree} {path : Path}
    (success : tree.create path = .ok created) (bytes : Bytes) :
    ChangedOnly tree (created.append path bytes) (tree.LeadsTo path) := by
  obtain ⟨place, found, reached, ended, rfl⟩ := Files.Tree.create_eq_ok success
  rw [Files.Tree.append, Files.Tree.find_put reached ended]
  constructor
  · rw [directories_put, directories_put]
  · intro other changed
    rw [Files.Tree.content?_put, Files.Tree.content?_put] at changed
    by_cases same : other = place
    · rw [same]
      exact ⟨found, reached, ended⟩
    · simp only [same, ↓reduceIte] at changed
      exact absurd rfl changed

namespace Session

variable {α β ε : Type}

/-- Whether an action does nothing but report, however it ends. -/
def Quiet (action : Session α) : Prop :=
  ∀ world, ∃ log, (action.run.run world).2 = { world with log }

theorem quiet_pure (value : α) : Quiet (pure value : Session α) :=
  fun world => ⟨world.log, rfl⟩

theorem quiet_fail (failure : Failure) : Quiet (fail failure : Session α) :=
  fun world => ⟨world.log, rfl⟩

theorem quiet_bind {first : Session α} {next : α → Session β} (quiet : Quiet first)
    (onward : ∀ value, Quiet (next value)) : Quiet (first >>= next) := by
  intro world
  obtain ⟨log, same⟩ := quiet world
  rw [run_bind]
  rcases ran : first.run.run world with ⟨result, between⟩
  rw [ran] at same
  simp only at same
  rw [same]
  cases result with
  | ok value =>
    obtain ⟨later, final⟩ := onward value { world with log }
    exact ⟨later, final⟩
  | error failure => exact ⟨log, rfl⟩

/-- A check in front of what comes next. -/
theorem quiet_unless {condition : Prop} [Decidable condition] {failure : Failure}
    {next : Unit → Session α} (onward : Quiet (next ())) :
    Quiet (if condition then fail failure >>= next else next ()) := by
  split
  · intro world
    exact ⟨world.log, rfl⟩
  · exact onward

theorem quiet_lift (wrap : ε → Failure) (outcome : Except ε α) : Quiet (lift wrap outcome) := by
  cases outcome with
  | ok value => exact quiet_pure value
  | error error => exact quiet_fail (wrap error)

theorem quiet_demand (cause : Defect) (argument : Argument α) : Quiet (demand cause argument) := by
  cases argument with
  | void => exact quiet_fail (.defect cause)
  | value value => exact quiet_pure value

theorem quiet_get : Quiet (get : Session World) :=
  fun world => ⟨world.log, rfl⟩

theorem quiet_report (entries : List LogEntry) : Quiet (report entries) :=
  fun _ => ⟨_, rfl⟩

theorem quiet_readFile (path : Path) : Quiet (readFile path) :=
  quiet_bind quiet_get fun _ => quiet_lift _ _

theorem Quiet.ends {action : Session α} {world after : World} {value : α} (quiet : Quiet action)
    (ended : Ends action world value after) : ∃ log, after = { world with log } := by
  obtain ⟨log, same⟩ := quiet world
  rw [ended] at same
  exact ⟨log, same⟩

theorem Quiet.fails {action : Session α} {world after : World} {failure : Failure}
    (quiet : Quiet action) (failed : Fails action world failure after) :
    ∃ log, after = { world with log } := by
  obtain ⟨log, same⟩ := quiet world
  rw [failed] at same
  exact ⟨log, same⟩

/-- Whether an action does nothing if it fails, and changes only certain files if it succeeds,
whatever has been reported before. -/
structure Frames (action : Session Unit) (world : World) (mayChange : Files.Place → Prop) :
    Prop where
  failed : ∀ log failure after, Fails action { world with log } failure after →
    ∃ later, after = { world with log := later }
  ended : ∀ log after, Ends action { world with log } () after →
    ChangedOnly world.tree after.tree mayChange

variable {world : World} {mayChange : Files.Place → Prop}

theorem frames_bind {first : Session α} {next : α → Session Unit} (quiet : Quiet first)
    (onward : ∀ value before between, Ends first before value between →
      Frames (next value) world mayChange) :
    Frames (first >>= next) world mayChange := by
  constructor
  · intro log failure after failed
    rcases fails_bind.mp failed with failed | ⟨value, between, ended, failed⟩
    · obtain ⟨later, rfl⟩ := quiet.fails failed
      exact ⟨later, rfl⟩
    · obtain ⟨_, rfl⟩ := quiet.ends ended
      exact (onward value _ _ ended).failed _ failure after failed
  · intro log after ended
    obtain ⟨value, between, first, later⟩ := ends_bind.mp ended
    obtain ⟨_, rfl⟩ := quiet.ends first
    exact (onward value _ _ first).ended _ after later

theorem frames_of_fails {action : Session Unit}
    (fails : ∀ world, ∃ failure, Fails action world failure world) :
    Frames action world mayChange := by
  constructor
  · intro log failure after failed
    obtain ⟨reason, same⟩ := fails { world with log }
    cases failed.symm.trans same
    exact ⟨log, rfl⟩
  · intro log after ended
    obtain ⟨reason, same⟩ := fails { world with log }
    cases ended.symm.trans same

theorem frames_unless {condition : Prop} [Decidable condition] {failure : Failure}
    {next : Unit → Session Unit} (onward : Frames (next ()) world mayChange) :
    Frames (if condition then fail failure >>= next else next ()) world mayChange := by
  split
  · exact frames_of_fails fun _ => ⟨failure, rfl⟩
  · exact onward

theorem frames_of_ends {action : Session Unit}
    (succeeds : ∀ world failure after, ¬ Fails action world failure after)
    (same : ∀ world after, Ends action world () after → after.tree = world.tree) :
    Frames action world mayChange := by
  constructor
  · intro log failure after failed
    exact (succeeds _ failure after failed).elim
  · intro log after ended
    rw [same _ after ended]
    exact ChangedOnly.refl _ _

theorem frames_print (text : Text.CodeText) : Frames (print text) world mayChange := by
  refine frames_of_ends (fun _ _ _ => fails_print.mp) fun world after ended => ?_
  rw [ends_print.mp ended]

theorem frames_print_report (text : Text.CodeText) (entries : List LogEntry) :
    Frames (print text >>= fun _ => report entries) world mayChange := by
  refine frames_of_ends (fun world failure after failed => ?_) fun world after ended => ?_
  · simp only [fails_bind, fails_print, fails_report, and_false, exists_false, or_false] at failed
  · simp only [ends_bind, ends_print, ends_report, exists_eq_left] at ended
    obtain ⟨_, rfl⟩ := ended
    rfl

/-- Once a file has been created nothing fails any more. -/
theorem frames_store {path : Path} {bytes : Bytes} {rest : Session Unit} (quiet : Quiet rest)
    (succeeds : ∀ world failure after, ¬ Fails rest world failure after) :
    Frames (createFile path >>= fun _ => appendFile path bytes >>= fun _ => rest) world
      (world.tree.LeadsTo path) := by
  constructor
  · intro log failure after failed
    rcases fails_bind.mp failed with failed | ⟨_, _, _, failed⟩
    · obtain ⟨_, _, _, rfl⟩ := fails_createFile.mp failed
      exact ⟨log, rfl⟩
    · rcases fails_bind.mp failed with failed | ⟨_, _, _, failed⟩
      · exact (fails_appendFile.mp failed).elim
      · exact (succeeds _ _ _ failed).elim
  · intro log after ended
    obtain ⟨_, _, create, ended⟩ := ends_bind.mp ended
    obtain ⟨tree, created, rfl⟩ := ends_createFile.mp create
    obtain ⟨_, _, append, ended⟩ := ends_bind.mp ended
    rw [ends_appendFile.mp append] at ended
    obtain ⟨_, rfl⟩ := quiet.ends ended
    exact changedOnly_append_create created bytes

end Session

open Session

variable {yaml : Yaml.EventSource}

theorem quiet_readMemoryMap (path : Path) : Quiet (readMemoryMap yaml path) := by
  refine quiet_bind quiet_get fun world => ?_
  simp only
  split
  · exact quiet_fail _
  · exact quiet_fail _
  · refine quiet_bind (quiet_report _) fun _ => ?_
    split
    · exact quiet_fail _
    · exact quiet_pure _

theorem quiet_buildImage (segments : List Segment) : Quiet (buildImage segments) :=
  quiet_bind quiet_get fun _ => quiet_bind (quiet_report _) fun _ => quiet_lift _ _

theorem quiet_readConfig (path : Path) : Quiet (readConfig yaml path) := by
  refine quiet_bind quiet_get fun world => ?_
  split
  · exact quiet_fail _
  · exact quiet_fail _
  · simp only
    split
    · exact quiet_fail _
    · exact quiet_bind (quiet_report _) fun _ => quiet_pure _

theorem quiet_readBlocks (format : InputFormat) (path : Path) : Quiet (readBlocks format path) := by
  refine quiet_bind (quiet_readFile path) fun bytes => ?_
  cases format with
  | records dialect =>
    exact quiet_bind (quiet_report _) fun _ => quiet_bind (quiet_lift _ _) fun _ => quiet_pure _
  | flat layout =>
    exact quiet_bind (quiet_report _) fun _ => quiet_bind (quiet_lift _ _) fun _ => quiet_pure _

theorem quiet_placeBlocks (format : InputFormat) (start : Option (Argument Nat))
    (buffer : Array UInt8) (image : Image) (low high : Int) (blocks : List Block) :
    Quiet (placeBlocks format start buffer image low high blocks) := by
  induction blocks generalizing image low high with
  | nil => exact quiet_pure _
  | cons block rest ih =>
    refine quiet_bind (quiet_lift _ _) fun argument => ?_
    refine quiet_bind (quiet_demand _ _) fun place => ?_
    refine quiet_bind (quiet_lift _ _) fun image => ?_
    exact quiet_bind (quiet_report _) fun _ => ih image _ _

theorem quiet_loadFile (path : Argument Path) (format : Option (Argument InputFormat))
    (start : Option (Argument Nat)) : Quiet (loadFile path format start) := by
  unfold loadFile
  split
  · exact quiet_fail _
  · refine quiet_bind (quiet_demand _ _) fun format => ?_
    refine quiet_bind (quiet_demand _ _) fun path => ?_
    refine quiet_bind (quiet_readBlocks _ _) fun blocks => ?_
    exact quiet_unless (quiet_placeBlocks _ _ _ _ _ _ _)

theorem quiet_loadText (text : String) (format : Option (Argument InputFormat))
    (start : Option (Argument Nat)) : Quiet (loadText text format start) := by
  refine quiet_unless ?_
  split
  · exact quiet_fail _
  · refine quiet_bind (quiet_lift _ _) fun payload => ?_
    refine quiet_unless ?_
    refine quiet_bind (quiet_demand _ _) fun start => ?_
    exact quiet_bind (quiet_lift _ _) fun image => quiet_pure _

theorem quiet_load (options : ConvertOptions) : Quiet (load options) := by
  unfold load
  split
  · exact quiet_loadFile _ _ _
  · exact quiet_loadText _ _ _

theorem quiet_extentOf (loaded : Loaded) (extent : Option Extent) :
    Quiet (extentOf loaded extent) := by
  unfold extentOf
  split
  · exact quiet_pure _
  · exact quiet_bind (quiet_demand _ _) fun _ => quiet_pure _
  · exact quiet_pure _
  · exact quiet_pure _

/-- The image for the flash, if there is a memory map. -/
def imageFor (yaml : Yaml.EventSource) (memoryMap : Option (Argument Path)) :
    Session (Option Image) :=
  match memoryMap with
  | none => pure none
  | some path => do
    let segments ← readMemoryMap yaml (← demand .missingValue path)
    return some (← buildImage segments)

/-- The record for the flash, if there are settings. -/
def recordFor (yaml : Yaml.EventSource) (config : Option (Argument Path)) : Session Bytes :=
  match config with
  | none => pure []
  | some path => do
    let config ← readConfig yaml (← demand .missingValue path)
    lift .defect config.pack

theorem setupData_eq (options : SetupOptions) :
    setupData yaml options = do
      let image ← imageFor yaml options.memoryMap
      let record ← recordFor yaml options.config
      return flashData image record := by
  obtain ⟨memoryMap, config, output⟩ := options
  cases memoryMap <;> cases config <;>
    simp only [setupData, imageFor, recordFor, pure_bind, bind_assoc] <;> rfl

theorem quiet_imageFor (memoryMap : Option (Argument Path)) : Quiet (imageFor yaml memoryMap) := by
  cases memoryMap with
  | none => exact quiet_pure _
  | some path =>
    refine quiet_bind (quiet_demand _ _) fun path => ?_
    refine quiet_bind (quiet_readMemoryMap path) fun segments => ?_
    exact quiet_bind (quiet_buildImage segments) fun image => quiet_pure _

theorem quiet_recordFor (config : Option (Argument Path)) : Quiet (recordFor yaml config) := by
  cases config with
  | none => exact quiet_pure _
  | some path =>
    refine quiet_bind (quiet_demand _ _) fun path => ?_
    exact quiet_bind (quiet_readConfig path) fun config => quiet_lift _ _

theorem quiet_setupData (options : SetupOptions) : Quiet (setupData yaml options) := by
  rw [setupData_eq]
  refine quiet_bind (quiet_imageFor _) fun image => ?_
  exact quiet_bind (quiet_recordFor _) fun record => quiet_pure _

variable {world after : World}

theorem length_le_of_recordFor {config : Option (Argument Path)} {record : Bytes}
    (ended : Ends (recordFor yaml config) world record after) : record.length ≤ 370 := by
  cases config with
  | none =>
    rw [(ends_pure.mp ended).1]
    exact Nat.zero_le 370
  | some path =>
    simp only [recordFor, ends_demand_bind] at ended
    obtain ⟨path, _, ended⟩ := ended
    obtain ⟨config, _, read, packed⟩ := ends_bind.mp ended
    obtain ⟨_, _, rfl⟩ := BoardConfig.pack_eq_ok.mp (ends_lift.mp packed).1
    exact Nat.le_of_eq (BoardConfig.length_record config)

/-- Whatever goes to the flash finds room there. -/
theorem setupData_fits {options : SetupOptions} {data : Bytes} {address : Int}
    (ended : Ends (setupData yaml options) world (data, address) after) :
    ∃ file blocks, Uf2.write data address = (file, some blocks) := by
  rw [setupData_eq] at ended
  obtain ⟨image, _, _, ended⟩ := ends_bind.mp ended
  obtain ⟨record, _, packed, ended⟩ := ends_bind.mp ended
  have short := length_le_of_recordFor packed
  have same := (ends_pure.mp ended).1
  have map : memoryMapAddress = 0x101c0000 := rfl
  have settings : configAddress = 0x101e0000 := rfl
  -- The image and the record behind it, or the record alone, end well below 2 ^ 32.
  have room : 0 ≤ address ∧ address + data.length ≤ 0x100000000 := by
    cases image with
    | none =>
      cases same
      omega
    | some image =>
      cases same
      have size := length_toBytes image
      rw [List.length_append]
      omega
  obtain ⟨_, file, written, _⟩ := Uf2.write_whole room.1 room.2
  exact ⟨file, _, written⟩

/-- The file that a command is told to write. -/
def Command.output? : Command → Option Path
  | convert options => options.output.bind Argument.value?
  | setup options => options.output.value?
  | memoryMap _ => none
  | dump _ => none

/-- Whether a command writes the file in some place, if it succeeds. -/
def Command.Writes (command : Command) (tree : Files.Tree) (place : Files.Place) : Prop :=
  ∃ path, command.output? = some path ∧ tree.LeadsTo path place

theorem Command.writes_eq {command : Command} {path : Path} (output : command.output? = some path)
    (tree : Files.Tree) : command.Writes tree = tree.LeadsTo path := by
  funext place
  simp only [Writes, output, Option.some.injEq, exists_eq_left']

theorem frames_convert (options : ConvertOptions) (world : World) :
    Frames (convert options) world ((Command.convert options).Writes world.tree) := by
  refine frames_bind (quiet_load options) fun loaded _ _ _ => ?_
  refine frames_bind (quiet_extentOf _ _) fun extent _ _ _ => ?_
  refine frames_bind (quiet_demand _ _) fun target _ _ _ => ?_
  refine frames_bind (quiet_demand _ _) fun count _ _ _ => ?_
  refine frames_bind (quiet_lift _ _) fun cells _ _ _ => ?_
  cases output : options.output with
  | none =>
    cases target.write cells extent.1 with
    | text text => exact frames_print_report _ _
    | bytes bytes => exact frames_of_fails fun _ => ⟨_, rfl⟩
  | some argument =>
    refine frames_bind (quiet_demand _ _) fun path _ _ given => ?_
    obtain ⟨rfl, _⟩ := ends_demand.mp given
    have leads : (Command.convert options).output? = some path := by
      rw [Command.output?, output]
      rfl
    rw [Command.writes_eq leads]
    cases target.write cells extent.1 with
    | text text => exact frames_store (quiet_report _) fun _ _ _ => fails_report.mp
    | bytes bytes => exact frames_store (quiet_report _) fun _ _ _ => fails_report.mp

theorem frames_setup (options : SetupOptions) (world : World) :
    Frames (setup yaml options) world ((Command.setup options).Writes world.tree) := by
  unfold setup
  refine frames_unless ?_
  refine frames_bind (quiet_setupData _) fun placed _ _ ended => ?_
  obtain ⟨data, address⟩ := placed
  obtain ⟨file, blocks, written⟩ := setupData_fits ended
  refine frames_bind (quiet_demand _ _) fun path _ _ given => ?_
  have leads : (Command.setup options).output? = some path := by
    rw [Command.output?, (ends_demand.mp given).1]
    rfl
  rw [Command.writes_eq leads]
  simp only [written]
  refine frames_store (quiet_bind (quiet_report _) fun _ => quiet_report _) ?_
  intro world failure after failed
  exact fails_report.mp (fails_report_bind.mp failed)

theorem frames_listMemoryMap (options : MemoryMapOptions) (world : World)
    (mayChange : Files.Place → Prop) : Frames (listMemoryMap yaml options) world mayChange := by
  refine frames_bind (quiet_demand _ _) fun path _ _ _ => ?_
  refine frames_bind (quiet_readMemoryMap path) fun segments _ _ _ => ?_
  split
  · exact frames_bind (quiet_buildImage segments) fun image _ _ _ => frames_print _
  · exact frames_print _

theorem frames_dump (options : DumpOptions) (world : World) (mayChange : Files.Place → Prop) :
    Frames (dump options) world mayChange := by
  refine frames_bind (quiet_demand _ _) fun path _ _ _ => ?_
  refine frames_bind (quiet_readFile path) fun file _ _ _ => ?_
  exact frames_bind (quiet_lift _ _) fun blocks _ _ _ => frames_print _

/-- A command that fails has created, changed and printed nothing. One that succeeds has left all
files as they were but the one that it is told to write. -/
theorem run_frames (yaml : Yaml.EventSource) (command : Command) (world : World) :
    match (command.run yaml).run.run world with
    | (.error _, after) => after.tree = world.tree ∧ after.printed = world.printed
    | (.ok (), after) => ChangedOnly world.tree after.tree (command.Writes world.tree) := by
  have frames : Frames (command.run yaml) world (command.Writes world.tree) := by
    refine frames_bind (quiet_report _) fun _ _ _ _ => ?_
    cases command with
    | convert options => exact frames_convert options world
    | setup options => exact frames_setup options world
    | memoryMap options => exact frames_listMemoryMap options world _
    | dump options => exact frames_dump options world _
  rcases ran : (command.run yaml).run.run world with ⟨result, after⟩
  cases result with
  | ok => exact frames.ended world.log after ran
  | error failure =>
    obtain ⟨later, rfl⟩ := frames.failed world.log failure after ran
    exact ⟨rfl, rfl⟩

end CommandLine

end MemoryBoard
