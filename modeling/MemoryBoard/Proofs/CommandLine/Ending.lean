import MemoryBoard.Main
import MemoryBoard.Proofs.CommandLine.Frame
import MemoryBoard.Proofs.HexRecord.Acceptance
import MemoryBoard.Proofs.MemoryMap.Defect
import MemoryBoard.Proofs.Scan.ByteText

set_option autoImplicit false

/- How a command line ends: with success, with a message, or with a defect that no layer has made an
error of its own. Such a defect goes back to what the command names or what its files hold. -/
namespace MemoryBoard.CommandLine

open Session

/-- Whether an option of a command lacks its value. -/
def Command.LacksValue : Command → Prop
  | convert options =>
    options.input = .file .void ∨ options.format = some .void ∨ options.start = some .void ∨
      options.extent = some (.range .void) ∨ options.extent = some (.count .void) ∨
      options.target = .void ∨ options.output = some .void
  | setup options =>
    options.memoryMap = some .void ∨ options.config = some .void ∨ options.output = .void
  | memoryMap options => options.input = .void
  | dump options => options.input = .void

/-- The hex record file that a command reads. -/
def Command.records? : Command → Option Path
  | convert ⟨.file (.value path), some (.value (.records _)), _, _, _, _⟩ => some path
  | _ => none

/-- The settings that a command reads. -/
def Command.config? : Command → Option Path
  | setup options => options.config.bind Argument.value?
  | _ => none

/-- Where the defects come from that can end a command. -/
inductive Command.Meets (yaml : Yaml.EventSource) (command : Command) (tree : Files.Tree) :
    Defect → Prop where
  | lacksValue {cause : Defect} : cause ∈ [.missingFile, .missingRange, .missingValue] →
      command.LacksValue → command.Meets yaml tree cause
  | path {path : Path} {cause : Defect} : path ∈ command.paths → path.Stops cause →
      command.Meets yaml tree cause
  | undecodable {path : Path} {bytes : Bytes} : command.records? = some path →
      tree.read path = .ok bytes → (Text.decodeUtf8 bytes).2 ≠ none →
      command.Meets yaml tree .undecodable
  | document {path : Path} {bytes : Bytes} {cause : Defect} :
      command.memoryMap? = some path ∨ command.config? = some path →
      tree.read path = .ok bytes → (yaml bytes).fault = some (.defect cause) →
      command.Meets yaml tree cause
  /-- The name of a file in a memory map. It is taken from the directory of the map. -/
  | fileName {map : Path} {bytes : Bytes} {text : Text.CodeText} {cause : Defect} :
      command.memoryMap? = some map → tree.read map = .ok bytes →
      Document.HasEntry (yaml bytes).events MemoryMap.Field.file.key text →
      (map.parent.relativeTo (.ofText text)).Stops cause → command.Meets yaml tree cause
  | mapValue {map : Path} {bytes : Bytes} {field : MemoryMap.Field} {text : Text.CodeText}
      {cause : Defect} : command.memoryMap? = some map → tree.read map = .ok bytes →
      Document.HasEntry (yaml bytes).events field.key text → field.Stops text cause →
      command.Meets yaml tree cause
  | setting {path : Path} {bytes : Bytes} {field : Config.Field} {text : Text.CodeText}
      {cause : Defect} : command.config? = some path → tree.read path = .ok bytes →
      Document.HasEntry (yaml bytes).events field.name text → field.Stops text cause →
      command.Meets yaml tree cause
  /-- Settings that could be read, with a text that has no UTF-8 form. -/
  | record {path : Path} {bytes : Bytes} {state : Config.State} : command.config? = some path →
      tree.read path = .ok bytes → Config.read {} (yaml bytes) = (state, none) →
      ¬ state.config.Encodable → command.Meets yaml tree .unencodable

namespace Session

variable {α β ε : Type} {Allowed : Defect → Prop} {world : World}

/-- Whether the defects that an action can fail with are certain ones, whatever has been reported
before. -/
def FailsOnly (Allowed : Defect → Prop) (action : Session α) (world : World) : Prop :=
  ∀ log failure after cause, Fails action { world with log } failure after →
    failure.defect? = some cause → Allowed cause

theorem failsOnly_of_succeeds {action : Session α}
    (succeeds : ∀ world failure after, ¬ Fails action world failure after) :
    FailsOnly Allowed action world :=
  fun _ _ _ _ failed _ => (succeeds _ _ _ failed).elim

theorem failsOnly_pure (value : α) : FailsOnly Allowed (pure value) world :=
  failsOnly_of_succeeds fun _ _ _ => fails_pure.mp

theorem failsOnly_report (entries : List LogEntry) : FailsOnly Allowed (report entries) world :=
  failsOnly_of_succeeds fun _ _ _ => fails_report.mp

theorem failsOnly_print (text : Text.CodeText) : FailsOnly Allowed (print text) world :=
  failsOnly_of_succeeds fun _ _ _ => fails_print.mp

theorem failsOnly_get : FailsOnly Allowed (get : Session World) world :=
  failsOnly_of_succeeds fun _ _ _ => fails_get.mp

theorem failsOnly_fail {failure : Failure}
    (own : ∀ cause, failure.defect? = some cause → Allowed cause) :
    FailsOnly Allowed (fail failure : Session α) world := by
  intro log reason after cause failed defect
  rw [(fails_fail.mp failed).1] at defect
  exact own cause defect

theorem failsOnly_bind {first : Session α} {next : α → Session β} (quiet : Quiet first)
    (begins : FailsOnly Allowed first world)
    (onward : ∀ value log after, Ends first { world with log } value after →
      FailsOnly Allowed (next value) world) : FailsOnly Allowed (first >>= next) world := by
  intro log failure after cause failed defect
  rcases fails_bind.mp failed with failed | ⟨value, between, ended, failed⟩
  · exact begins log failure after cause failed defect
  · obtain ⟨later, rfl⟩ := quiet.ends ended
    exact onward value log _ ended later failure after cause failed defect

theorem failsOnly_unless {condition : Prop} [Decidable condition] {failure : Failure}
    {next : Unit → Session α} (own : failure.defect? = none)
    (onward : FailsOnly Allowed (next ()) world) :
    FailsOnly Allowed (if condition then fail failure >>= next else next ()) world := by
  split
  · intro log reason after cause failed defect
    cases failed
    rw [own] at defect
    cases defect
  · exact onward

theorem failsOnly_lift {wrap : ε → Failure} {outcome : Except ε α}
    (each : ∀ error cause, outcome = .error error → (wrap error).defect? = some cause →
      Allowed cause) : FailsOnly Allowed (lift wrap outcome) world := by
  intro log failure after cause failed defect
  obtain ⟨error, refused, reason, _⟩ := fails_lift.mp failed
  rw [reason] at defect
  exact each error cause refused defect

/-- Errors of a layer that has no defects. -/
theorem failsOnly_lift_own {wrap : ε → Failure} (own : ∀ error, (wrap error).defect? = none)
    (outcome : Except ε α) : FailsOnly Allowed (lift wrap outcome) world := by
  refine failsOnly_lift fun error cause _ defect => ?_
  rw [own error] at defect
  cases defect

theorem failsOnly_demand {cause : Defect} {argument : Argument α}
    (void : argument = .void → Allowed cause) :
    FailsOnly Allowed (demand cause argument) world := by
  intro log failure after other failed defect
  obtain ⟨lacks, reason, _⟩ := fails_demand.mp failed
  rw [reason] at defect
  cases defect
  exact void lacks

theorem failsOnly_readFile {path : Path} (stops : ∀ cause, path.Stops cause → Allowed cause) :
    FailsOnly Allowed (readFile path) world := by
  intro log failure after cause failed defect
  obtain ⟨error, unreadable, reason, _⟩ := fails_readFile.mp failed
  rw [reason] at defect
  cases error with
  | system path error => cases defect
  | defect other =>
    cases defect
    exact stops cause (Files.Tree.read_eq_defect.mp unreadable)

theorem failsOnly_store {path : Path} {bytes : Bytes} {rest : Session Unit}
    (stops : ∀ cause, path.Stops cause → Allowed cause)
    (succeeds : ∀ world failure after, ¬ Fails rest world failure after) :
    FailsOnly Allowed (createFile path >>= fun _ => appendFile path bytes >>= fun _ => rest)
      world := by
  intro log failure after cause failed defect
  rcases fails_bind.mp failed with failed | ⟨_, _, _, failed⟩
  · obtain ⟨error, refused, reason, _⟩ := fails_createFile.mp failed
    rw [reason] at defect
    cases error with
    | system path error => cases defect
    | defect other =>
      cases defect
      exact stops cause (Files.Tree.create_eq_defect.mp refused)
  · rcases fails_bind.mp failed with failed | ⟨_, _, _, failed⟩
    · exact (fails_appendFile.mp failed).elim
    · exact (succeeds _ _ _ failed).elim

end Session

variable {yaml : Yaml.EventSource} {command : Command} {world : World} {path : Path}

theorem mem_values (chosen : Option (Argument Path)) {arguments : List (Argument Path)}
    (within : ∀ argument, chosen = some argument → argument ∈ arguments)
    (given : chosen.bind Argument.value? = some path) :
    path ∈ arguments.filterMap Argument.value? := by
  obtain ⟨argument, present, value⟩ := Option.bind_eq_some_iff.mp given
  exact List.mem_filterMap.mpr ⟨argument, within argument present, value⟩

theorem mem_paths_of_document
    (given : command.memoryMap? = some path ∨ command.config? = some path) :
    path ∈ command.paths := by
  cases command with
  | setup options =>
    rcases given with given | given
    · exact mem_values options.memoryMap (by simp +contextual) given
    · exact mem_values options.config (by simp +contextual) given
  | memoryMap options =>
    rcases given with given | given
    · exact mem_values (some options.input) (by simp) given
    · cases given
  | _ => rcases given with given | given <;> cases given

theorem mem_paths_of_output (given : command.output? = some path) : path ∈ command.paths := by
  cases command with
  | convert options => exact mem_values options.output (by simp +contextual) given
  | setup options => exact mem_values (some options.output) (by simp) given
  | _ => cases given

/-- A path that a command names and that cannot be read. -/
theorem meets_of_read {tree : Files.Tree} {cause : Defect} (named : path ∈ command.paths)
    (unreadable : tree.read path = .error (.defect cause)) : command.Meets yaml tree cause :=
  .path named (Files.Tree.read_eq_defect.mp unreadable)

/-- Reading a document that a command names. A file that cannot be opened is an error of the
document's kind. -/
theorem failsOnly_open {α : Type} {wrap : FileError → Failure} {next : Bytes → Session α}
    (given : command.memoryMap? = some path ∨ command.config? = some path)
    (own : ∀ error, (wrap error).defect? = none)
    (onward : ∀ bytes, world.tree.read path = .ok bytes →
      FailsOnly (command.Meets yaml world.tree) (next bytes) world) :
    FailsOnly (command.Meets yaml world.tree) (match world.tree.read path with
      | .error (.defect cause) => fail (.defect cause)
      | .error error => fail (wrap error)
      | .ok bytes => next bytes) world := by
  cases content : world.tree.read path with
  | error error =>
    cases error with
    | system place error =>
      refine failsOnly_fail fun cause defect => ?_
      rw [own] at defect
      cases defect
    | defect cause =>
      refine failsOnly_fail fun other same => ?_
      cases same
      exact meets_of_read (mem_paths_of_document given) content
  | ok bytes => exact onward bytes content

theorem failsOnly_readMemoryMap (given : command.memoryMap? = some path) :
    FailsOnly (command.Meets yaml world.tree) (readMemoryMap yaml path) world := by
  refine failsOnly_bind quiet_get failsOnly_get fun found log after ended => ?_
  obtain ⟨rfl, _⟩ := ends_get.mp ended
  refine failsOnly_open (Or.inl given) (fun _ => rfl) fun bytes content => ?_
  simp only
  rcases read : MemoryMap.read ⟨some path.parent, world.tree.size⟩ (yaml bytes) with
    ⟨state, error⟩
  refine failsOnly_bind (quiet_report _) (failsOnly_report _) fun _ _ _ _ => ?_
  cases error with
  | none => exact failsOnly_pure _
  | some error =>
    refine failsOnly_fail fun cause defect => ?_
    have same : error = .defect cause := by
      cases error <;> cases defect
      rfl
    rw [same] at read
    rcases MemoryMap.read_eq_defect read with
      fault | ⟨field, text, entry, stops⟩ | ⟨text, entry, unmeasured⟩
    · exact .document (Or.inl given) content fault
    · exact .mapValue given content entry stops
    · exact .fileName given content entry (Files.Tree.size_eq_defect.mp unmeasured)

theorem failsOnly_buildImage {Allowed : Defect → Prop} {segments : List Segment}
    {log : Array LogEntry} {after : World}
    (ended : Ends (readMemoryMap yaml path) { world with log } segments after) :
    FailsOnly Allowed (buildImage segments) world := by
  obtain ⟨bytes, state, _, read, rfl, _⟩ := ends_readMemoryMap.mp ended
  let setting : MemoryMap.Setting := ⟨some path.parent, world.tree.size⟩
  have sound := MemoryMap.consume_sound setting (yaml bytes).events
  have reached : state =
      (MemoryMap.consume setting .initial (yaml bytes).events).1 :=
    (congrArg Prod.fst read).symm.trans (Document.consume_ending _ _ _ _).1
  rw [← reached] at sound
  -- A file whose size was found has a path that a system may have, so it can be opened at least.
  have measured (place : Path) (size : Nat) (cause : Defect)
      (found : world.tree.size place = .ok size) :
      world.tree.read place ≠ .error (.defect cause) := by
    intro unreadable
    have unmeasured : world.tree.size place = .error (.defect cause) :=
      Files.Tree.size_eq_defect.mpr (Files.Tree.read_eq_defect.mp unreadable)
    rw [found] at unmeasured
    cases unmeasured
  have equipped : ∀ segment ∈ state.segments.toList,
      Layout.Equipped ⟨none, world.tree.read⟩ segment := by
    intro segment member
    rw [Array.mem_toList_iff] at member
    obtain ⟨first, sound⟩ := sound segment member
    exact sound.equipped measured
  refine failsOnly_bind quiet_get failsOnly_get fun found log after ended => ?_
  obtain ⟨rfl, _⟩ := ends_get.mp ended
  refine failsOnly_bind (quiet_report _) (failsOnly_report _) fun _ _ _ _ => ?_
  refine failsOnly_lift fun failure cause refused defect => ?_
  have own := Layout.placeFrom_isOwn equipped _ _ failure refused cause
  cases error : failure.error with
  | defect other =>
    rw [error] at own defect
    cases defect
    exact absurd rfl own
  | _ =>
    rw [error] at defect
    cases defect

theorem failsOnly_readConfig (given : command.config? = some path) :
    FailsOnly (command.Meets yaml world.tree) (readConfig yaml path) world := by
  refine failsOnly_bind quiet_get failsOnly_get fun found log after ended => ?_
  obtain ⟨rfl, _⟩ := ends_get.mp ended
  refine failsOnly_open (Or.inr given) (fun _ => rfl) fun bytes content => ?_
  simp only
  rcases read : Config.read {} (yaml bytes) with ⟨state, error⟩
  cases error with
  | none =>
    exact failsOnly_bind (quiet_report _) (failsOnly_report _) fun _ _ _ _ => failsOnly_pure _
  | some error =>
    refine failsOnly_fail fun cause defect => ?_
    have same : error = .defect cause := by
      cases error <;> cases defect
      rfl
    rw [same] at read
    rcases Config.read_eq_defect read with fault | ⟨field, text, entry, stops⟩
    · exact .document (Or.inr given) content fault
    · exact .setting given content entry stops

theorem failsOnly_imageFor (options : SetupOptions) :
    FailsOnly ((Command.setup options).Meets yaml world.tree) (imageFor yaml options.memoryMap)
      world := by
  cases map : options.memoryMap with
  | none => exact failsOnly_pure _
  | some argument =>
    refine failsOnly_bind (quiet_demand _ _) (failsOnly_demand fun void => ?_)
      fun path _ _ given => ?_
    · rw [void] at map
      exact .lacksValue (by simp) (Or.inl map)
    have named : (Command.setup options).memoryMap? = some path := by
      rw [Command.memoryMap?, map, (ends_demand.mp given).1]
      rfl
    refine failsOnly_bind (quiet_readMemoryMap path) (failsOnly_readMemoryMap named)
      fun segments _ _ read => ?_
    exact failsOnly_bind (quiet_buildImage segments) (failsOnly_buildImage read)
      fun image _ _ _ => failsOnly_pure _

theorem failsOnly_recordFor (options : SetupOptions) :
    FailsOnly ((Command.setup options).Meets yaml world.tree) (recordFor yaml options.config)
      world := by
  cases settings : options.config with
  | none => exact failsOnly_pure _
  | some argument =>
    refine failsOnly_bind (quiet_demand _ _) (failsOnly_demand fun void => ?_)
      fun path _ _ given => ?_
    · rw [void] at settings
      exact .lacksValue (by simp) (Or.inr (Or.inl settings))
    have named : (Command.setup options).config? = some path := by
      rw [Command.config?, settings, (ends_demand.mp given).1]
      rfl
    refine failsOnly_bind (quiet_readConfig path) (failsOnly_readConfig named)
      fun config _ _ read => ?_
    obtain ⟨bytes, state, content, accepted, rfl, _⟩ := ends_readConfig.mp read
    refine failsOnly_lift fun cause other failed defect => ?_
    cases defect
    have packable := Config.read_packable Config.packable_default (yaml bytes)
    rw [accepted] at packable
    obtain rfl := BoardConfig.pack_fails packable cause failed
    exact .record named content accepted ((BoardConfig.pack_eq_unencodable packable).mp failed)

theorem failsOnly_setup (options : SetupOptions) (world : World) :
    FailsOnly ((Command.setup options).Meets yaml world.tree) (setup yaml options) world := by
  have data : FailsOnly ((Command.setup options).Meets yaml world.tree) (setupData yaml options)
      world := by
    rw [setupData_eq]
    refine failsOnly_bind (quiet_imageFor _) (failsOnly_imageFor options) fun _ _ _ _ => ?_
    exact failsOnly_bind (quiet_recordFor _) (failsOnly_recordFor options)
      fun _ _ _ _ => failsOnly_pure _
  unfold setup
  refine failsOnly_unless rfl ?_
  refine failsOnly_bind (quiet_setupData _) data fun placed _ _ ended => ?_
  obtain ⟨bytes, address⟩ := placed
  obtain ⟨file, blocks, written⟩ := setupData_fits ended
  refine failsOnly_bind (quiet_demand _ _) (failsOnly_demand fun void => ?_)
    fun path _ _ given => ?_
  · exact .lacksValue (by simp) (Or.inr (Or.inr void))
  have named : (Command.setup options).output? = some path := by
    rw [Command.output?, (ends_demand.mp given).1]
    rfl
  simp only [written]
  refine failsOnly_store (fun _ => .path (mem_paths_of_output named)) ?_
  intro world failure after failed
  exact fails_report.mp (fails_report_bind.mp failed)

theorem ofFile_defect {bytes : Bytes} {cause : Defect}
    (hidden : (Text.Source.ofFile bytes).defect = some cause) :
    (Text.decodeUtf8 bytes).2 ≠ none ∧ cause = .undecodable := by
  unfold Text.Source.ofFile at hidden
  split at hidden
  · cases hidden
  · rename_i decoded
    cases hidden
    rw [decoded]
    exact ⟨nofun, rfl⟩

theorem failsOnly_readBlocks {options : ConvertOptions} {format : InputFormat}
    (input : options.input = .file (.value path)) (given : options.format = some (.value format)) :
    FailsOnly ((Command.convert options).Meets yaml world.tree) (readBlocks format path) world := by
  have named : path ∈ (Command.convert options).paths := by
    simp only [Command.paths, input, List.mem_filterMap]
    exact ⟨.value path, by simp, rfl⟩
  refine failsOnly_bind (quiet_readFile path) (failsOnly_readFile fun _ => .path named)
    fun bytes _ _ read => ?_
  have content := (ends_readFile.mp read).1
  cases format with
  | flat layout =>
    refine failsOnly_bind (quiet_report _) (failsOnly_report _) fun _ _ _ _ => ?_
    exact failsOnly_bind (quiet_lift _ _) (failsOnly_lift_own (fun _ => rfl) _)
      fun _ _ _ _ => failsOnly_pure _
  | records dialect =>
    refine failsOnly_bind (quiet_report _) (failsOnly_report _) fun _ _ _ _ => ?_
    refine failsOnly_bind (quiet_lift _ _) (failsOnly_lift fun error cause refused defect => ?_)
      fun _ _ _ _ => failsOnly_pure _
    have same : error = ⟨error.line, .defect cause⟩ := by
      obtain ⟨line, fault⟩ := error
      cases fault <;> cases defect
      rfl
    rw [same] at refused
    obtain ⟨faulty, rfl⟩ := ofFile_defect (HexRecord.read_eq_defect (Prod.ext refused rfl))
    refine .undecodable ?_ content faulty
    obtain ⟨_, _, _, _, _, _⟩ := options
    cases input
    cases given
    rfl

theorem blockStart_eq_void {format : InputFormat} {start : Option (Argument Nat)} {block : Block}
    (void : blockStart format start block = .ok .void) : start = some .void := by
  unfold blockStart at void
  simp only at void
  split at void <;> cases void
  rfl

theorem failsOnly_placeBlocks {Allowed : Defect → Prop} (format : InputFormat)
    {start : Option (Argument Nat)} (void : start = some .void → Allowed .missingValue)
    (buffer : Array UInt8) (image : Image) (low high : Int) (blocks : List Block) :
    FailsOnly Allowed (placeBlocks format start buffer image low high blocks) world := by
  induction blocks generalizing image low high with
  | nil => exact failsOnly_pure _
  | cons block rest ih =>
    refine failsOnly_bind (quiet_lift _ _) (failsOnly_lift_own (fun _ => rfl) _)
      fun argument _ _ chosen => ?_
    refine failsOnly_bind (quiet_demand _ _) (failsOnly_demand fun lacks => ?_)
      fun place _ _ _ => ?_
    · rw [lacks] at chosen
      exact void (blockStart_eq_void (ends_lift.mp chosen).1)
    refine failsOnly_bind (quiet_lift _ _) (failsOnly_lift_own (fun _ => rfl) _)
      fun image _ _ _ => ?_
    exact failsOnly_bind (quiet_report _) (failsOnly_report _) fun _ _ _ _ => ih image _ _

theorem failsOnly_load (options : ConvertOptions) :
    FailsOnly ((Command.convert options).Meets yaml world.tree) (load options) world := by
  unfold load
  cases input : options.input with
  | file argument =>
    simp only
    unfold loadFile
    cases format : options.format with
    | none => exact failsOnly_fail nofun
    | some choice =>
      refine failsOnly_bind (quiet_demand _ _) (failsOnly_demand fun void => ?_)
        fun chosen _ _ demanded => ?_
      · rw [void] at format
        exact .lacksValue (by simp) (by simp [Command.LacksValue, format])
      obtain ⟨rfl, _⟩ := ends_demand.mp demanded
      refine failsOnly_bind (quiet_demand _ _) (failsOnly_demand fun void => ?_)
        fun path _ _ demanded => ?_
      · rw [void] at input
        exact .lacksValue (by simp) (by simp [Command.LacksValue, input])
      obtain ⟨rfl, _⟩ := ends_demand.mp demanded
      refine failsOnly_bind (quiet_readBlocks _ _) (failsOnly_readBlocks input format)
        fun blocks _ _ _ => ?_
      refine failsOnly_unless rfl ?_
      refine failsOnly_placeBlocks _ (fun void => ?_) _ _ _ _ _
      exact .lacksValue (by simp) (by simp [Command.LacksValue, void])
  | text text =>
    simp only
    unfold loadText
    refine failsOnly_unless rfl ?_
    cases start : options.start with
    | none => exact failsOnly_fail nofun
    | some argument =>
      refine failsOnly_bind (quiet_lift _ _) (failsOnly_lift fun error cause refused defect => ?_)
        fun payload _ _ _ => ?_
      · cases error <;> cases defect
        exact absurd refused Scan.byteText_ne_defect
      refine failsOnly_unless rfl ?_
      refine failsOnly_bind (quiet_demand _ _) (failsOnly_demand fun void => ?_)
        fun place _ _ _ => ?_
      · rw [void] at start
        exact .lacksValue (by simp) (by simp [Command.LacksValue, start])
      exact failsOnly_bind (quiet_lift _ _) (failsOnly_lift_own (fun _ => rfl) _)
        fun _ _ _ _ => failsOnly_pure _

theorem failsOnly_extentOf {Allowed : Defect → Prop} {extent : Option Extent} (loaded : Loaded)
    (void : extent = some (.range .void) → Allowed .missingRange) :
    FailsOnly Allowed (extentOf loaded extent) world := by
  unfold extentOf
  split
  · exact failsOnly_pure _
  · refine failsOnly_bind (quiet_demand _ _) (failsOnly_demand fun lacks => ?_)
      fun _ _ _ _ => failsOnly_pure _
    rw [lacks] at void
    exact void rfl
  · exact failsOnly_pure _
  · exact failsOnly_pure _

theorem extentOf_void {loaded : Loaded} {extent : Option Extent} {start : Int} {after : World}
    (ended : Ends (extentOf loaded extent) world (start, .void) after) :
    extent = some (.count .void) := by
  unfold extentOf at ended
  split at ended
  · cases ends_pure.mp ended |>.1
  · obtain ⟨_, _, _, ended⟩ := ends_bind.mp ended
    cases ends_pure.mp ended |>.1
  · rfl
  · cases ends_pure.mp ended |>.1

theorem failsOnly_convert (options : ConvertOptions) (world : World) :
    FailsOnly ((Command.convert options).Meets yaml world.tree) (convert options) world := by
  refine failsOnly_bind (quiet_load options) (failsOnly_load options) fun loaded _ _ _ => ?_
  refine failsOnly_bind (quiet_extentOf _ _) (failsOnly_extentOf loaded fun void => ?_)
    fun extent _ _ settled => ?_
  · exact .lacksValue (by simp) (by simp [Command.LacksValue, void])
  refine failsOnly_bind (quiet_demand _ _) (failsOnly_demand fun void => ?_) fun target _ _ _ => ?_
  · exact .lacksValue (by simp) (by simp [Command.LacksValue, void])
  refine failsOnly_bind (quiet_demand _ _) (failsOnly_demand fun void => ?_) fun count _ _ _ => ?_
  · obtain ⟨start, argument⟩ := extent
    simp only at void
    rw [void] at settled
    exact .lacksValue (by simp) (by simp [Command.LacksValue, extentOf_void settled])
  refine failsOnly_bind (quiet_lift _ _) (failsOnly_lift_own (fun _ => rfl) _) fun cells _ _ _ => ?_
  cases output : options.output with
  | none =>
    cases target.write cells extent.1 with
    | text text =>
      refine failsOnly_of_succeeds fun world failure after failed => ?_
      simp only [fails_bind, fails_print, fails_report, and_false, exists_false, or_false]
        at failed
    | bytes bytes =>
      intro log failure after cause failed defect
      cases failed
      cases defect
  | some argument =>
    refine failsOnly_bind (quiet_demand _ _) (failsOnly_demand fun void => ?_)
      fun path _ _ given => ?_
    · rw [void] at output
      exact .lacksValue (by simp) (by simp [Command.LacksValue, output])
    obtain ⟨rfl, _⟩ := ends_demand.mp given
    have named : (Command.convert options).output? = some path := by
      rw [Command.output?, output]
      rfl
    have stops (cause : Defect) : path.Stops cause →
        (Command.convert options).Meets yaml world.tree cause := .path (mem_paths_of_output named)
    cases target.write cells extent.1 with
    | text text => exact failsOnly_store stops fun _ _ _ => fails_report.mp
    | bytes bytes => exact failsOnly_store stops fun _ _ _ => fails_report.mp

theorem failsOnly_listMemoryMap (options : MemoryMapOptions) (world : World) :
    FailsOnly ((Command.memoryMap options).Meets yaml world.tree) (listMemoryMap yaml options)
      world := by
  refine failsOnly_bind (quiet_demand _ _) (failsOnly_demand fun void => ?_)
    fun path _ _ given => ?_
  · exact .lacksValue (by simp) void
  have named : (Command.memoryMap options).memoryMap? = some path := by
    rw [Command.memoryMap?, (ends_demand.mp given).1]
    rfl
  refine failsOnly_bind (quiet_readMemoryMap path) (failsOnly_readMemoryMap named)
    fun segments _ _ read => ?_
  split
  · exact failsOnly_bind (quiet_buildImage segments) (failsOnly_buildImage read)
      fun _ _ _ _ => failsOnly_print _
  · exact failsOnly_print _

theorem failsOnly_dump (options : DumpOptions) (world : World) :
    FailsOnly ((Command.dump options).Meets yaml world.tree) (dump options) world := by
  refine failsOnly_bind (quiet_demand _ _) (failsOnly_demand fun void => ?_)
    fun path _ _ given => ?_
  · exact .lacksValue (by simp) void
  have named : path ∈ (Command.dump options).paths := by
    simp only [Command.paths, List.mem_filterMap]
    exact ⟨options.input, by simp, by rw [(ends_demand.mp given).1]; rfl⟩
  refine failsOnly_bind (quiet_readFile path) (failsOnly_readFile fun _ => .path named)
    fun bytes _ _ _ => ?_
  exact failsOnly_bind (quiet_lift _ _) (failsOnly_lift_own (fun _ => rfl) _)
    fun _ _ _ _ => failsOnly_print _

theorem failsOnly_run (command : Command) (world : World) :
    FailsOnly (command.Meets yaml world.tree) (command.run yaml) world := by
  refine failsOnly_bind (quiet_report _) (failsOnly_report _) fun _ _ _ _ => ?_
  cases command with
  | convert options => exact failsOnly_convert options world
  | setup options => exact failsOnly_setup options world
  | memoryMap options => exact failsOnly_listMemoryMap options world
  | dump options => exact failsOnly_dump options world

/-- A command line that can be used succeeds, or fails with a message, or meets a defect: an option
without a value, a path that no system has, a file whose text cannot be had, a number with too many
digits or a text that has no UTF-8 form. -/
theorem run_ending (yaml : Yaml.EventSource) (words : List String) (world : World) :
    match readCommand words with
    | .misuse => run yaml words world = (.misuse, world)
    | .help => run yaml words world = (.success, world)
    | .use command =>
      (run yaml words world).1 = .success ∨
        (∃ message, (run yaml words world).1 = .failure message) ∨
        ∃ cause, (run yaml words world).1 = .defect cause ∧
          command.Meets yaml world.tree cause := by
  unfold run
  cases readCommand words with
  | misuse => rfl
  | help => rfl
  | use command =>
    simp only
    rcases ran : (command.run yaml).run.run world with ⟨result, after⟩
    cases result with
    | ok => exact Or.inl rfl
    | error failure =>
      have only : FailsOnly (command.Meets yaml world.tree) (command.run yaml) world :=
        failsOnly_run command world
      simp only
      cases defect : failure.defect? with
      | none => exact Or.inr (Or.inl ⟨failure.message, rfl⟩)
      | some cause =>
        exact Or.inr (Or.inr ⟨cause, rfl, only world.log failure after cause ran defect⟩)

theorem fails_load_records {options : ConvertOptions} {dialect : HexRecord.Dialect} {bytes : Bytes}
    {error : HexError} (input : options.input = .file (.value path))
    (format : options.format = some (.value (.records dialect)))
    (found : world.tree.read path = .ok bytes)
    (refused : (HexRecord.read dialect (.ofFile bytes) (Array.replicate addressCount 0)).1 =
      .error error) :
    ∃ log, Fails (load options) world (.hex error) { world with log } := by
  let entries := HexRecord.readLog dialect addressCount (.ofFile bytes)
  have blocks : Fails (readBlocks (.records dialect) path) world (.hex error)
      { world with log := entries.foldl Array.push world.log } := by
    refine fails_bind.mpr (Or.inr ⟨bytes, world, ends_readFile.mpr ⟨found, rfl⟩, ?_⟩)
    refine fails_report_bind.mpr (fails_bind.mpr (Or.inl ?_))
    exact fails_lift.mpr ⟨error, refused, rfl, rfl⟩
  refine ⟨entries.foldl Array.push world.log, ?_⟩
  rw [load, input]
  simp only [loadFile, format]
  refine fails_bind.mpr (Or.inr ⟨.records dialect, world, ends_demand.mpr ⟨rfl, rfl⟩, ?_⟩)
  refine fails_bind.mpr (Or.inr ⟨path, world, ends_demand.mpr ⟨rfl, rfl⟩, ?_⟩)
  exact fails_bind.mpr (Or.inl blocks)

/-- A hex record file that is not UTF-8 ends a conversion neither with success nor with a
message. -/
theorem convert_undecodable :
    let words := ["convert", "-i", "a.hex", "-f", "ihex"]
    let world : World := ⟨⟨[(.ofNames ["a.hex"], [0xff])], []⟩, [], #[]⟩
    let ending := (run Yaml.fileEvents words world).1
    (∃ command, readCommand words = .use command) ∧
      ¬ (ending = .success ∨ ∃ message, ending = .failure message) := by
  intro words world ending
  let options : ConvertOptions := ⟨.file (.value ⟨0, ["a.hex"]⟩), some (.value (.records .intel)),
    none, none, .value .dump, none⟩
  have read : readCommand words = .use (.convert options) := rfl
  have found : world.tree.read ⟨0, ["a.hex"]⟩ = .ok [0xff] := by decide +kernel
  have refused : (HexRecord.read .intel (.ofFile [0xff]) (Array.replicate addressCount 0)).1 =
      .error ⟨0, .defect .undecodable⟩ := by
    rw [HexRecord.read, Array.size_replicate]
    rfl
  let begun : World := { world with log := #[⟨"cli", "command convert"⟩] }
  have loads : ∃ log, Fails (load options) begun (.hex ⟨0, .defect .undecodable⟩)
      { begun with log } := fails_load_records rfl rfl found refused
  obtain ⟨log, failed⟩ := loads
  have whole : Fails ((Command.convert options).run Yaml.fileEvents) world
      (.hex ⟨0, .defect .undecodable⟩) { world with log } :=
    fails_report_bind.mpr (fails_bind.mpr (Or.inl failed))
  have defect : ending = .defect .undecodable := by
    simp only [ending]
    rw [run, read]
    simp only
    rw [show ((Command.convert options).run Yaml.fileEvents).run.run world = _ from whole]
    rfl
  refine ⟨⟨_, read⟩, ?_⟩
  rw [defect]
  rintro (impossible | ⟨message, impossible⟩) <;> cases impossible

end MemoryBoard.CommandLine
