import MemoryBoard.Defect

set_option autoImplicit false

namespace MemoryBoard.Text

/-- A text with the defect that stops a reader at its end, if there is one. -/
structure Source where
  text : List Char
  defect : Option Defect
deriving Repr

/-- The lines without their ends. A last line may lack one; a defect hides it then. -/
def linesOf (text : List Char) : List (List Char) :=
  let pieces := text.splitOn '\n'
  if pieces.getLast? = some [] then pieces.dropLast else pieces

def Source.lines (source : Source) : List (List Char) :=
  match source.defect with
  | none => linesOf source.text
  | some _ => linesOf (source.text.reverse.dropWhile (· != '\n')).reverse

end MemoryBoard.Text
