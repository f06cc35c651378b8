import MemoryBoard.CommandLine.Options
import MemoryBoard.Config.Reader
import MemoryBoard.FlatFile
import MemoryBoard.HexRecord.Reader
import MemoryBoard.MemoryMap.Layout
import MemoryBoard.MemoryMap.Reader
import MemoryBoard.Scan.ByteText
import MemoryBoard.Uf2

set_option autoImplicit false

/- What a command works on: the files, the text it prints and the lines it reports. A command that
fails says why; what it did up to there stays done. -/
namespace MemoryBoard.CommandLine

/-- Options that do not go together. -/
inductive UsageError where
  | textWithFormat
  | textWithoutStart
  | emptyText
  | noFormat
  | noData (path : Path)
  | startForAddressed (format : String)
  | noStart (format : String)
  | noOutput (format : String)
  | nothingToSetUp
deriving DecidableEq, Repr

def UsageError.message : UsageError → Text.CodeText
  | textWithFormat => "Options '--data' and '--format' are mutually exclusive"
  | textWithoutStart => "Option '--start' is mandatory with '--data'"
  | emptyText => "Binary string must not be empty"
  | noFormat => "Missing mandatory option: --format"
  | noData path => "No data in '" ++ path.text ++ "'"
  | startForAddressed format => s!"Option '--start' is incompatible with '{format}' format"
  | noStart format => s!"Option '--start' is mandatory for '{format}' format"
  | noOutput format => s!"Option '--output' is required for '{format}' format"
  | nothingToSetUp => "At least one of memory map or setup file names must be specified"

/-- Why a command fails. -/
inductive Failure where
  | usage (error : UsageError)
  | scan (error : ScanError)
  | image (error : ImageError)
  | layout (error : LayoutError)
  | hex (error : HexError)
  | binary (error : BinaryError)
  | uf2 (error : Uf2Error)
  | memoryMap (error : MemoryMapError)
  | config (error : ConfigError)
  | file (error : FileError)
  | defect (cause : Defect)
deriving DecidableEq, Repr

namespace Failure

/-- The defect behind a failure, if it is not one that commands report. -/
def defect? : Failure → Option Defect
  | scan (.defect cause) => some cause
  | layout (.defect cause) => some cause
  | hex ⟨_, .defect cause⟩ => some cause
  | memoryMap (.defect cause) => some cause
  | config (.defect cause) => some cause
  | file (.defect cause) => some cause
  | defect cause => some cause
  | _ => none

def message : Failure → Text.CodeText
  | usage error => error.message
  | scan error => error.message
  | image error => error.message
  | layout error => error.message
  | hex error => error.message
  | binary error => error.message
  | uf2 error => error.message
  | memoryMap error => error.message
  | config error => error.message
  | file error => error.message
  | defect _ => "Unexpected condition"

end Failure

structure World where
  tree : Files.Tree
  /-- What has been printed. -/
  printed : Text.CodeText
  log : Array LogEntry
deriving Repr, Inhabited

abbrev Session := ExceptT Failure (StateM World)

namespace Session

def fail {α : Type} (failure : Failure) : Session α :=
  throw failure

/-- Goes on with a result, or fails with its error. -/
def lift {α ε : Type} (wrap : ε → Failure) (result : Except ε α) : Session α :=
  match result with
  | .ok value => return value
  | .error error => fail (wrap error)

/-- The value of an option that cannot do without one. -/
def demand {α : Type} (cause : Defect) (argument : Argument α) : Session α :=
  match argument with
  | .void => fail (.defect cause)
  | .value value => return value

def report (entries : List LogEntry) : Session Unit :=
  modify fun world => { world with log := entries.foldl Array.push world.log }

/-- Prints a text. The output takes any text. -/
def print (text : Text.CodeText) : Session Unit :=
  modify fun world => { world with printed := world.printed ++ text }

def readFile (path : Path) : Session Bytes := do
  lift .file ((← get).tree.read path)

/-- Empties or creates a file. -/
def createFile (path : Path) : Session Unit := do
  let tree ← lift .file ((← get).tree.create path)
  modify fun world => { world with tree }

def appendFile (path : Path) (bytes : Bytes) : Session Unit :=
  modify fun world => { world with tree := world.tree.append path bytes }

end Session

open Session

/-- The image that segments describe. -/
def buildImage (segments : List Segment) : Session Image := do
  let result := Layout.build ⟨none, (← get).tree.read⟩ segments
  report (Layout.log segments result)
  lift (fun failure => .layout failure.error) result

section

variable (yaml : Yaml.EventSource)

/-- The segments of the memory map in a file. Names of files in it start from its directory. -/
def readMemoryMap (path : Path) : Session (List Segment) := do
  let tree := (← get).tree
  match tree.read path with
  | .error (.defect cause) => fail (.defect cause)
  | .error error => fail (.memoryMap (.cannotOpen error))
  | .ok bytes =>
    let setting : MemoryMap.Setting := ⟨some path.parent, tree.size⟩
    let (state, error) := MemoryMap.read setting (yaml bytes)
    report state.log
    match error with
    | some error => fail (.memoryMap error)
    | none => return state.segments.toList

/-- The settings in a file, over the ones that hold without it. -/
def readConfig (path : Path) : Session BoardConfig := do
  match (← get).tree.read path with
  | .error (.defect cause) => fail (.defect cause)
  | .error error => fail (.config (.cannotOpen error))
  | .ok bytes =>
    let (state, error) := Config.read {} (yaml bytes)
    match error with
    | some error => fail (.config error)
    | none =>
      report [Config.readEntry state.config]
      return state.config

end

end MemoryBoard.CommandLine
