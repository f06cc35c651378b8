import MemoryBoard.Text.Blank
import MemoryBoard.Text.LowerCase

set_option autoImplicit false

namespace MemoryBoard

structure LogEntry where
  category : String
  text : String
deriving DecidableEq, Repr

/-- The categories to show. `all` stands for every one. -/
structure Categories where
  names : List String
deriving Repr, Inhabited

namespace Categories

/-- Reads a comma separated list. Case and white space around a name do not count. -/
def parse (text : String) : Categories :=
  let pieces := (text.toList.splitOn ',').map Text.strip
  ⟨((pieces.filter (· ≠ [])).map fun piece => Text.lowerCase (String.ofList piece)).eraseDups⟩

def none : Categories := ⟨[]⟩

/-- Whether any category is shown at all. -/
def any (categories : Categories) : Bool :=
  !categories.names.isEmpty

def shows (categories : Categories) (category : String) : Bool :=
  categories.names.contains "all" || categories.names.contains (Text.lowerCase category)

end Categories

def LogEntry.line (entry : LogEntry) : String :=
  s!"[MEMCFG][{entry.category}] {entry.text}\n"

/-- The lines of the entries whose category is shown. -/
def Categories.render (categories : Categories) (entries : List LogEntry) : String :=
  String.join ((entries.filter (categories.shows ·.category)).map LogEntry.line)

end MemoryBoard
