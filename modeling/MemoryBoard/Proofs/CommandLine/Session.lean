import MemoryBoard.CommandLine.Session

set_option autoImplicit false

namespace MemoryBoard.CommandLine.Session

variable {α β ε : Type} {world after : World}

/-- An action that succeeds in a world, with its value and the world it leaves. -/
def Ends (action : Session α) (world : World) (value : α) (after : World) : Prop :=
  action.run.run world = (.ok value, after)

theorem ends_pure {value result : α} :
    Ends (pure value) world result after ↔ result = value ∧ after = world := by
  constructor
  · intro ended
    cases ended
    exact ⟨rfl, rfl⟩
  · rintro ⟨rfl, rfl⟩
    rfl

theorem run_bind (first : Session α) (next : α → Session β) (world : World) :
    (first >>= next).run.run world =
      match first.run.run world with
      | (.ok value, between) => (next value).run.run between
      | (.error failure, between) => (.error failure, between) := by
  change (ExceptT.bindCont next (first.run.run world).1).run (first.run.run world).2 = _
  rcases first.run.run world with ⟨result, between⟩
  cases result <;> rfl

/-- Two steps succeed if the second does so from where the first has led. -/
theorem ends_bind {first : Session α} {next : α → Session β} {result : β} :
    Ends (first >>= next) world result after ↔
      ∃ value between, Ends first world value between ∧ Ends (next value) between result after := by
  unfold Ends
  rw [run_bind]
  rcases first.run.run world with ⟨firstResult, between⟩
  cases firstResult with
  | ok value =>
    constructor
    · intro ended
      exact ⟨value, between, rfl, ended⟩
    · rintro ⟨_, _, same, ended⟩
      cases same
      exact ended
  | error failure =>
    constructor
    · intro ended
      cases ended
    · rintro ⟨_, _, impossible, _⟩
      cases impossible

theorem ends_fail {failure : Failure} {result : α} :
    Ends (fail failure) world result after ↔ False := by
  constructor
  · intro ended
    cases ended
  · exact False.elim

theorem ends_lift {wrap : ε → Failure} {outcome : Except ε α} {result : α} :
    Ends (lift wrap outcome) world result after ↔ outcome = .ok result ∧ after = world := by
  cases outcome with
  | error error =>
    rw [lift, ends_fail]
    constructor
    · exact False.elim
    · rintro ⟨impossible, _⟩
      cases impossible
  | ok value =>
    rw [lift, ends_pure, Except.ok.injEq, eq_comm]

theorem ends_demand {cause : Defect} {argument : Argument α} {result : α} :
    Ends (demand cause argument) world result after ↔
      argument = .value result ∧ after = world := by
  cases argument with
  | void =>
    rw [demand, ends_fail]
    constructor
    · exact False.elim
    · rintro ⟨impossible, _⟩
      cases impossible
  | value value =>
    rw [demand, ends_pure, Argument.value.injEq, eq_comm]

theorem ends_get {result : World} :
    Ends (get : Session World) world result after ↔ result = world ∧ after = world := by
  constructor
  · intro ended
    cases ended
    exact ⟨rfl, rfl⟩
  · rintro ⟨rfl, rfl⟩
    rfl

theorem ends_modify {change : World → World} {result : Unit} :
    Ends (modify change : Session Unit) world result after ↔ after = change world := by
  constructor
  · intro ended
    cases ended
    rfl
  · rintro rfl
    rfl

theorem ends_report {entries : List LogEntry} {result : Unit} :
    Ends (report entries) world result after ↔
      after = { world with log := entries.foldl Array.push world.log } :=
  ends_modify

theorem ends_print {text : Text.CodeText} {result : Unit} :
    Ends (print text) world result after ↔
      after = { world with printed := world.printed ++ text } :=
  ends_modify

theorem ends_readFile {path : Path} {bytes : Bytes} :
    Ends (readFile path) world bytes after ↔ world.tree.read path = .ok bytes ∧ after = world := by
  rw [readFile, ends_bind]
  constructor
  · rintro ⟨value, between, first, second⟩
    obtain ⟨rfl, rfl⟩ := ends_get.mp first
    exact ends_lift.mp second
  · intro read
    exact ⟨world, world, ends_get.mpr ⟨rfl, rfl⟩, ends_lift.mpr read⟩

theorem ends_createFile {path : Path} {result : Unit} :
    Ends (createFile path) world result after ↔
      ∃ tree, world.tree.create path = .ok tree ∧ after = { world with tree } := by
  rw [createFile, ends_bind]
  constructor
  · rintro ⟨value, between, first, rest⟩
    obtain ⟨rfl, rfl⟩ := ends_get.mp first
    obtain ⟨tree, between, created, changed⟩ := ends_bind.mp rest
    obtain ⟨created, rfl⟩ := ends_lift.mp created
    exact ⟨tree, created, ends_modify.mp changed⟩
  · rintro ⟨tree, created, changed⟩
    exact ⟨world, world, ends_get.mpr ⟨rfl, rfl⟩,
      ends_bind.mpr ⟨tree, world, ends_lift.mpr ⟨created, rfl⟩, ends_modify.mpr changed⟩⟩

theorem ends_appendFile {path : Path} {bytes : Bytes} {result : Unit} :
    Ends (appendFile path bytes) world result after ↔
      after = { world with tree := world.tree.append path bytes } :=
  ends_modify

theorem ends_fail_bind {failure : Failure} {next : α → Session β} {result : β} :
    Ends (fail failure >>= next) world result after ↔ False := by
  simp only [ends_bind, ends_fail, false_and, exists_false]

theorem ends_lift_bind {wrap : ε → Failure} {outcome : Except ε α} {next : α → Session β}
    {result : β} : Ends (lift wrap outcome >>= next) world result after ↔
      ∃ value, outcome = .ok value ∧ Ends (next value) world result after := by
  simp only [ends_bind, ends_lift, and_assoc, exists_and_left, exists_eq_left]

theorem ends_demand_bind {cause : Defect} {argument : Argument α} {next : α → Session β}
    {result : β} : Ends (demand cause argument >>= next) world result after ↔
      ∃ value, argument = .value value ∧ Ends (next value) world result after := by
  simp only [ends_bind, ends_demand, and_assoc, exists_and_left, exists_eq_left]

theorem ends_report_bind {entries : List LogEntry} {next : Unit → Session β} {result : β} :
    Ends (report entries >>= next) world result after ↔
      Ends (next ()) { world with log := entries.foldl Array.push world.log } result after := by
  simp only [ends_bind, ends_report, exists_eq_left]
  exact ⟨fun ⟨_, ended⟩ => ended, fun ended => ⟨(), ended⟩⟩

theorem ends_readFile_bind {path : Path} {next : Bytes → Session β} {result : β} :
    Ends (readFile path >>= next) world result after ↔
      ∃ bytes, world.tree.read path = .ok bytes ∧ Ends (next bytes) world result after := by
  simp only [ends_bind, ends_readFile, and_assoc, exists_and_left, exists_eq_left]

theorem ends_get_bind {next : World → Session β} {result : β} :
    Ends (get >>= next) world result after ↔ Ends (next world) world result after := by
  simp only [ends_bind, ends_get, and_assoc, exists_and_left, exists_eq_left]

end MemoryBoard.CommandLine.Session

namespace MemoryBoard.CommandLine

open Session

variable {yaml : Yaml.EventSource} {world after : World} {path : Path}

theorem ends_readMemoryMap {segments : List Segment} :
    Ends (readMemoryMap yaml path) world segments after ↔
      ∃ bytes state, world.tree.read path = .ok bytes ∧
        MemoryMap.read ⟨some path.parent, world.tree.size⟩ (yaml bytes) = (state, none) ∧
        segments = state.segments.toList ∧
        after = { world with log := state.log.foldl Array.push world.log } := by
  rw [readMemoryMap, ends_get_bind]
  cases found : world.tree.read path with
  | error error => cases error <;> simp [found, ends_fail]
  | ok bytes =>
    rcases read : MemoryMap.read ⟨some path.parent, world.tree.size⟩ (yaml bytes) with
      ⟨state, error⟩
    simp only [found, read, ends_report_bind]
    cases error with
    | none => simp [ends_pure, read]
    | some error => simp [ends_fail, read]

theorem ends_buildImage {segments : List Segment} {image : Image} :
    Ends (buildImage segments) world image after ↔
      Layout.build ⟨none, world.tree.read⟩ segments = .ok image ∧
        after =
          { world with log := (Layout.log segments (.ok image)).foldl Array.push world.log } := by
  rw [buildImage, ends_get_bind]
  simp only [ends_report_bind, ends_lift]
  constructor
  · rintro ⟨built, rfl⟩
    exact ⟨built, by rw [built]⟩
  · rintro ⟨built, rfl⟩
    exact ⟨built, by rw [built]⟩

theorem ends_readConfig {config : BoardConfig} :
    Ends (readConfig yaml path) world config after ↔
      ∃ bytes state, world.tree.read path = .ok bytes ∧
        Config.read {} (yaml bytes) = (state, none) ∧ config = state.config ∧
        after = { world with log := world.log.push (Config.readEntry state.config) } := by
  rw [readConfig, ends_get_bind]
  cases found : world.tree.read path with
  | error error => cases error <;> simp [ends_fail]
  | ok bytes =>
    rcases read : Config.read {} (yaml bytes) with ⟨state, error⟩
    simp only [read]
    cases error with
    | none =>
      simp only [ends_report_bind, ends_pure]
      simp [read]
    | some error => simp [ends_fail, read]

/-- The image that the memory map in a file describes. -/
def MapBuilds (yaml : Yaml.EventSource) (world : World) (path : Path) (image : Image) : Prop :=
  ∃ bytes state, world.tree.read path = .ok bytes ∧
    MemoryMap.read ⟨some path.parent, world.tree.size⟩ (yaml bytes) = (state, none) ∧
    Layout.build ⟨none, world.tree.read⟩ state.segments.toList = .ok image

/-- The settings that a file holds. -/
def ConfigReads (yaml : Yaml.EventSource) (world : World) (path : Path) (config : BoardConfig) :
    Prop :=
  ∃ bytes state, world.tree.read path = .ok bytes ∧
    Config.read {} (yaml bytes) = (state, none) ∧ state.config = config

theorem MapBuilds.ends {image : Image} (builds : MapBuilds yaml world path image)
    (log : Array LogEntry) : ∃ segments between after,
      Ends (readMemoryMap yaml path) { world with log } segments { world with log := between } ∧
        Ends (buildImage segments) { world with log := between } image
          { world with log := after } := by
  obtain ⟨bytes, state, found, read, built⟩ := builds
  exact ⟨_, _, _, ends_readMemoryMap.mpr ⟨bytes, state, found, read, rfl, rfl⟩,
    ends_buildImage.mpr ⟨built, rfl⟩⟩

theorem ConfigReads.ends {config : BoardConfig} (reads : ConfigReads yaml world path config)
    (log : Array LogEntry) : ∃ after,
      Ends (readConfig yaml path) { world with log } config { world with log := after } := by
  obtain ⟨bytes, state, found, read, same⟩ := reads
  exact ⟨_, ends_readConfig.mpr ⟨bytes, state, found, read, same.symm, rfl⟩⟩

end MemoryBoard.CommandLine
