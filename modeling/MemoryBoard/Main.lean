import MemoryBoard.CommandLine.Run
import MemoryBoard.CommandLine.Usage

set_option autoImplicit false

namespace MemoryBoard.CommandLine

/-- The paths that a command names. -/
def Command.paths (command : Command) : List Path :=
  let arguments := match command with
    | convert options =>
      (match options.input with
        | .file path => [path]
        | .text _ => []) ++ options.output.toList
    | setup options => options.memoryMap.toList ++ options.config.toList ++ [options.output]
    | memoryMap options => [options.input]
    | dump options => [options.input]
  arguments.filterMap Argument.value?

/-- The memory map that a command reads. -/
def Command.memoryMap? : Command → Option Path
  | setup options => options.memoryMap.bind Argument.value?
  | memoryMap options => options.input.value?
  | _ => none

/-- Every path that texts in a memory map could name. -/
def namedPaths (path : Path) (bytes : Bytes) : List Path :=
  let setting : MemoryMap.Setting := ⟨some path.parent, fun path => .error (.system path .notFound)⟩
  (Yaml.fileEvents bytes).events.filterMap fun event => event.value.map setting.resolve

/-- The directories that a path leads through. -/
def leadingPaths (path : Path) : List Path :=
  (List.range path.parts.length).map fun count => { path with parts := path.parts.take count }

def fileContent? (name : String) : IO (Option Bytes) := do
  try
    let content ← IO.FS.readBinFile name
    return some content.toList
  catch _ => return none

def isThere (name : String) : IO Bool := do
  try
    discard (IO.FS.realPath name)
    return true
  catch _ => return false

/-- Adds what is at a path to a tree. A name that is not UTF-8 cannot be asked for here. -/
def loadPath (tree : Files.Tree) (path : Path) : IO Files.Tree := do
  match path.text.string?, Files.Place.ofPath? path with
  | some name, some place =>
    match ← fileContent? name with
    | some content => return tree.put place content
    | none =>
      if ← isThere name then return { tree with directories := place :: tree.directories }
      else return tree
  | _, _ => return tree

def loadPaths (tree : Files.Tree) (paths : List Path) : IO Files.Tree :=
  (paths.flatMap fun path => leadingPaths path ++ [path]).foldlM loadPath tree

def loadTree (command : Command) : IO Files.Tree := do
  let tree ← loadPaths .empty command.paths
  match command.memoryMap? with
  | none => return tree
  | some path =>
    match tree.read path with
    | .ok bytes => loadPaths tree (namedPaths path bytes)
    | .error _ => return tree

/-- Stores the file that a command writes. -/
def storeOutput (command : Command) (earlier later : Files.Tree) : IO Unit := do
  for path in command.paths do
    match path.text.string?, later.read path with
    | some name, .ok content =>
      if (earlier.read path).toOption ≠ some content then
        IO.FS.writeBinFile name content.toByteArray
    | _, _ => pure ()

/-- Runs a command on the files of the system. -/
def runOnSystem (words : List String) (command : Command) : IO UInt32 := do
  let categories := Categories.parse ((← IO.getEnv "MEMCFG_DEBUG").getD "")
  let tree ← loadTree command
  let (ending, world) := run Yaml.fileEvents words ⟨tree, [], #[]⟩
  IO.print world.printed.shown
  IO.eprint (categories.render world.log.toList ++ ending.text)
  storeOutput command tree world.tree
  return ending.exitCode.toUInt32

/-- Runs a command line; the result is the exit code. -/
def runProgram (words : List String) : IO UInt32 := do
  match readCommand words with
  | .misuse =>
    IO.eprint usage
    return 2
  | .help =>
    IO.print usage
    return 0
  | .use command => runOnSystem words command

end MemoryBoard.CommandLine

def main (words : List String) : IO UInt32 :=
  MemoryBoard.CommandLine.runProgram words
