import MemoryBoard.CommandLine.Options
import MemoryBoard.Files.Path
import MemoryBoard.Format
import MemoryBoard.Scan.Number

set_option autoImplicit false

namespace MemoryBoard.CommandLine

/-- What is converted. -/
inductive Input where
  | file (path : Argument Path)
  /-- Bytes written as text with escapes. -/
  | text (text : String)
deriving DecidableEq, Repr

/-- Which addresses are written, if not all that were loaded. -/
inductive Extent where
  /-- From the first address to the last. -/
  | range (bounds : Argument (Nat × Nat))
  | count (count : Argument Nat)
deriving DecidableEq, Repr

structure ConvertOptions where
  input : Input
  format : Option (Argument InputFormat)
  start : Option (Argument Nat)
  extent : Option Extent
  target : Argument Format
  output : Option (Argument Path)
deriving DecidableEq, Repr

structure SetupOptions where
  memoryMap : Option (Argument Path)
  config : Option (Argument Path)
  output : Argument Path
deriving DecidableEq, Repr

structure MemoryMapOptions where
  input : Argument Path
  sections : Bool
deriving DecidableEq, Repr

structure DumpOptions where
  input : Argument Path
  data : Bool
deriving DecidableEq, Repr

inductive Command where
  | convert (options : ConvertOptions)
  | setup (options : SetupOptions)
  | memoryMap (options : MemoryMapOptions)
  | dump (options : DumpOptions)
deriving DecidableEq, Repr

def Command.name : Command → String
  | convert _ => "convert"
  | setup _ => "setup"
  | memoryMap _ => "memmap"
  | dump _ => "dump"

/-- The number of addresses to write, at most all of them. -/
def addressTotal? (text : String) : Option Nat :=
  match (Scan.unsigned32 text).toOption with
  | some count => if 0 < count ∧ count ≤ 0x10000 then some count else none
  | none => none

def pathArgument : Argument String → Argument Path
  | .void => .void
  | .value text => .value (.ofText text)

structure ConvertDraft where
  input : Option Input := none
  format : Option (Argument InputFormat) := none
  start : Option (Argument Nat) := none
  extent : Option Extent := none
  target : Argument Format := .value .dump
  output : Option (Argument Path) := none

namespace ConvertDraft

/-- A file cannot be given beside a text. -/
def setFile (draft : ConvertDraft) (argument : Argument String) : Option ConvertDraft :=
  match draft.input with
  | some (.text _) => none
  | _ => some { draft with input := some (.file (pathArgument argument)) }

/-- A text cannot be given beside a file. No text is the empty one. -/
def setText (draft : ConvertDraft) (argument : Argument String) : Option ConvertDraft :=
  match draft.input with
  | some (.file _) => none
  | _ => some { draft with input := some (.text (argument.value?.getD "")) }

def setFormat (draft : ConvertDraft) (argument : Argument String) : Option ConvertDraft := do
  return { draft with format := some (← argument.read? InputFormat.ofName?) }

def setStart (draft : ConvertDraft) (argument : Argument String) : Option ConvertDraft := do
  return { draft with start := some (← argument.read? fun text => (Scan.unsigned16 text).toOption) }

/-- A range cannot be given beside a count. -/
def setRange (draft : ConvertDraft) (argument : Argument String) : Option ConvertDraft := do
  let bounds ← argument.read? fun text => (Scan.addressRange text).toOption
  match draft.extent with
  | some (.count _) => none
  | _ => some { draft with extent := some (.range bounds) }

/-- A count cannot be given beside a range. -/
def setCount (draft : ConvertDraft) (argument : Argument String) : Option ConvertDraft := do
  let count ← argument.read? addressTotal?
  match draft.extent with
  | some (.range _) => none
  | _ => some { draft with extent := some (.count count) }

def setTarget (draft : ConvertDraft) (argument : Argument String) : Option ConvertDraft := do
  return { draft with target := ← argument.read? Format.ofName? }

def setOutput (draft : ConvertDraft) (argument : Argument String) : Option ConvertDraft :=
  some { draft with output := some (pathArgument argument) }

def options : List (OptionSpec ConvertDraft) := [
  ⟨"input", some 'i', .value setFile⟩,
  ⟨"data", some 'd', .value setText⟩,
  ⟨"format", some 'f', .value setFormat⟩,
  ⟨"start", some 's', .value setStart⟩,
  ⟨"range", some 'r', .value setRange⟩,
  ⟨"count", some 'c', .value setCount⟩,
  ⟨"to", some 't', .value setTarget⟩,
  ⟨"output", some 'o', .value setOutput⟩]

/-- Something to convert has to be given. -/
def finish (draft : ConvertDraft) : Option Command := do
  let { format, start, extent, target, output, .. } := draft
  return .convert { input := ← draft.input, format, start, extent, target, output }

end ConvertDraft

structure SetupDraft where
  memoryMap : Option (Argument Path) := none
  config : Option (Argument Path) := none
  output : Option (Argument Path) := none

namespace SetupDraft

def setMemoryMap (draft : SetupDraft) (argument : Argument String) : Option SetupDraft :=
  some { draft with memoryMap := some (pathArgument argument) }

def setConfig (draft : SetupDraft) (argument : Argument String) : Option SetupDraft :=
  some { draft with config := some (pathArgument argument) }

def setOutput (draft : SetupDraft) (argument : Argument String) : Option SetupDraft :=
  some { draft with output := some (pathArgument argument) }

def options : List (OptionSpec SetupDraft) := [
  ⟨"memmap", some 'm', .value setMemoryMap⟩,
  ⟨"setup", some 's', .value setConfig⟩,
  ⟨"output", some 'o', .value setOutput⟩]

/-- The output has to be given. -/
def finish (draft : SetupDraft) : Option Command := do
  let { memoryMap, config, .. } := draft
  return .setup { memoryMap, config, output := ← draft.output }

end SetupDraft

/-- The draft of a command that lists what is in a file. -/
structure ListDraft where
  input : Option (Argument Path) := none
  /-- Whether the other listing is asked for. -/
  marked : Bool := false

namespace ListDraft

def setInput (draft : ListDraft) (argument : Argument String) : Option ListDraft :=
  some { draft with input := some (pathArgument argument) }

def mark (draft : ListDraft) : ListDraft :=
  { draft with marked := true }

/-- The file, and the other listing under a name. -/
def options (name : String) : List (OptionSpec ListDraft) := [
  ⟨"input", some 'i', .value setInput⟩,
  ⟨name, none, .mark mark⟩]

def finishMemoryMap (draft : ListDraft) : Option Command := do
  return .memoryMap { input := ← draft.input, sections := draft.marked }

def finishDump (draft : ListDraft) : Option Command := do
  return .dump { input := ← draft.input, data := draft.marked }

end ListDraft

/-- How a command is written: its options, the draft that they start from, and what has to be in it
at the end. -/
structure CommandForm where
  Draft : Type
  initial : Draft
  options : List (OptionSpec Draft)
  finish : Draft → Option Command

def CommandForm.read (form : CommandForm) (words : List String) : Outcome Command := do
  let draft ← readOptions form.options form.initial words
  .ofOption (form.finish draft)

def commandNamed? (name : String) : Option CommandForm :=
  match name with
  | "convert" => some ⟨ConvertDraft, {}, ConvertDraft.options, ConvertDraft.finish⟩
  | "setup" => some ⟨SetupDraft, {}, SetupDraft.options, SetupDraft.finish⟩
  | "memmap" => some ⟨ListDraft, {}, ListDraft.options "sections", ListDraft.finishMemoryMap⟩
  | "dump" => some ⟨ListDraft, {}, ListDraft.options "data", ListDraft.finishDump⟩
  | _ => none

/-- The command of a command line: its name and its options. Of the words before the name only a
call for help is heard. -/
def readCommand : List String → Outcome Command
  | [] => .misuse
  | word :: rest =>
    match classify [(OptionSpec.help : OptionSpec Unit)] word with
    | .plain name =>
      match commandNamed? name with
      | none => .misuse
      | some form => form.read rest
    | .option _ _ _ => .help
    | .unknown =>
      match readCommand rest with
      | .help => .help
      | _ => .misuse
    | _ => .misuse

end MemoryBoard.CommandLine
