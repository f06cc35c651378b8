import MemoryBoard.Bytes
import MemoryBoard.Diagnostics
import MemoryBoard.Files.Path
import MemoryBoard.Text.Digits
import MemoryBoard.Text.Value

set_option autoImplicit false

namespace MemoryBoard

structure Segment where
  start : Option Int := none
  last : Option Int := none
  enabled : Option Bool := none
  readonly : Option Bool := none
  fill : Option Int := none
  data : Option Bytes := none
  file : Option Text.CodeText := none
  /-- How many addresses the segment takes. -/
  count : Int := 0
  /-- Where the file is. -/
  path : Option Path := none
deriving DecidableEq, Repr, Inhabited

namespace Segment

/-- Whether the segment changes anything. -/
def hasAction (segment : Segment) : Bool :=
  segment.data.isSome || segment.file.isSome || segment.fill.isSome || segment.enabled.isSome ||
    segment.readonly.isSome

private def optionalBool : Option Bool → Text.Value
  | none => .none
  | some value => .bool value

/-- What reading the segment reports. -/
def readEntry (segment : Segment) : LogEntry :=
  let start := Text.hexNumber 4 (segment.start.getD 0)
  let count := Text.hexNumber 0 segment.count
  let enabled := (optionalBool segment.enabled).plain
  let readonly := (optionalBool segment.readonly).plain
  ⟨"memmap", s!"segment {start}+{count} enabled={enabled} readonly={readonly}"⟩

/-- One line about the segment. -/
def summary (segment : Segment) : Text.CodeText :=
  let start := segment.start.getD 0
  let span := s!"0x{Text.hexNumber 4 start}-0x{Text.hexNumber 4 (start + segment.count - 1)}"
  let word (name : String) (value : Option String) : List String :=
    value.toList.map fun value => s!"{name}={value}"
  let file : Text.CodeText := match segment.file with
    | none => []
    | some file => " file=" ++ file
  " ".intercalate ([span, s!"count={segment.count}"] ++
    word "enabled" (segment.enabled.map fun value => if value then "true" else "false") ++
    word "type" (segment.readonly.map fun value => if value then "rom" else "ram") ++
    word "fill" (segment.fill.map fun value => "0x" ++ Text.hexNumber 2 value) ++
    word "data" (segment.data.map fun bytes => s!"{bytes.length} bytes")) ++ file

end Segment

end MemoryBoard
