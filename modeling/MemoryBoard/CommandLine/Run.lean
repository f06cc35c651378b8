import MemoryBoard.CommandLine.Convert
import MemoryBoard.Memory.Section

set_option autoImplicit false

namespace MemoryBoard.CommandLine

open Session

/-- Where the memory map image lies in flash. -/
def memoryMapAddress : Int := 0x101c0000

/-- Where the settings lie in flash, right behind the image. -/
def configAddress : Int := 0x101e0000

section

variable (yaml : Yaml.EventSource)

/-- The bytes for the flash and their address. -/
def setupData (options : SetupOptions) : Session (Bytes × Int) := do
  let image ← match options.memoryMap with
    | none => pure none
    | some path => do
      let segments ← readMemoryMap yaml (← demand .missingValue path)
      pure (some (← buildImage segments))
  let config ← match options.config with
    | none => pure []
    | some path => do
      let config ← readConfig yaml (← demand .missingValue path)
      lift .defect config.pack
  match image with
  | none => return (config, configAddress)
  | some image => return (image.toBytes ++ config, memoryMapAddress)

def setup (options : SetupOptions) : Session Unit := do
  if options.memoryMap.isNone ∧ options.config.isNone then fail (.usage .nothingToSetUp)
  let (data, address) ← setupData yaml options
  let output ← demand .missingFile options.output
  createFile output
  let (file, blocks) := Uf2.write data address
  appendFile output file
  match blocks with
  | none => fail (.defect .unpackable)
  | some blocks =>
    report (Uf2.writeLog data address)
    report [⟨"cli", s!"setup: {data.length} bytes in {blocks} blocks to {output.text.shown}"⟩]

def listMemoryMap (options : MemoryMapOptions) : Session Unit := do
  let segments ← readMemoryMap yaml (← demand .missingValue options.input)
  if options.sections then print (Section.documents (← buildImage segments).sections)
  else print (segments.flatMap fun segment => segment.summary ++ "\n")

/-- One line about a block of a flash file. -/
def blockSummary (block : Uf2.Block) : String :=
  s!"block {block.number}/{block.total} target 0x{Text.hexNumber 8 block.target} " ++
    s!"size {block.payloadSize} family 0x{Text.hexNumber 8 block.family}\n"

def dump (options : DumpOptions) : Session Unit := do
  let path ← demand .missingFile options.input
  let blocks ← lift .uf2 (Uf2.read (← readFile path))
  print <| String.join <| blocks.map fun block =>
    blockSummary block ++
      if options.data then String.ofList (HexDump.ofData block.payload block.target) else ""

def Command.run (command : Command) : Session Unit := do
  report [⟨"cli", s!"command {command.name}"⟩]
  match command with
  | convert options => CommandLine.convert options
  | setup options => CommandLine.setup yaml options
  | memoryMap options => listMemoryMap yaml options
  | dump options => CommandLine.dump options

/-- How a command line ends. -/
inductive Ending where
  | success
  | misuse
  | failure (message : Text.CodeText)
  | defect (cause : Defect)
deriving DecidableEq, Repr

def Ending.exitCode : Ending → Nat
  | success => 0
  | misuse => 2
  | failure _ => 1
  | defect _ => 1

/-- What is said about the ending. -/
def Ending.text : Ending → String
  | failure message => s!"memcfg: {message.shown}\n"
  | _ => ""

/-- Runs a command line, with the events of YAML files from some source. Help on options is left to
the outer layer. -/
def run (words : List String) (world : World) : Ending × World :=
  match readCommand words with
  | .misuse => (.misuse, world)
  | .help => (.success, world)
  | .use command =>
    match (command.run yaml).run.run world with
    | (.ok (), world) => (.success, world)
    | (.error failure, world) =>
      match failure.defect? with
      | some cause => (.defect cause, world)
      | none => (.failure failure.message, world)

end

end MemoryBoard.CommandLine
