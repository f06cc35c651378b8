import MemoryBoard.CommandLine.Command

set_option autoImplicit false

namespace MemoryBoard.CommandLine

def OptionSpec.synopsis {σ : Type} (spec : OptionSpec σ) : String :=
  let short := match spec.short with
    | none => ""
    | some c => s!"-{c}, "
  let value := if spec.takesValue then " VALUE" else ""
  s!"{short}--{spec.long}{value}"

/-- The commands with their options. -/
def commandSynopsis (name : String) : String :=
  let lines := (commandNamed? name).elim [] fun form => form.options.map (·.synopsis)
  String.join <| s!"  memcfg {name}\n" :: lines.map fun line => s!"      {line}\n"

def formatSynopsis (format : Format) : String :=
  s!"  {format.name}: {format.description}\n"

def usage : String :=
  "usage: memcfg COMMAND [OPTIONS]\n\ncommands:\n" ++
    String.join (["convert", "setup", "memmap", "dump"].map commandSynopsis) ++
    "\nformats:\n" ++ String.join (Format.all.map formatSynopsis)

end MemoryBoard.CommandLine
