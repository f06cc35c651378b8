import MemoryBoard.Text.Quoted

set_option autoImplicit false

namespace MemoryBoard

open Text

structure Path where
  /-- The slashes an absolute path begins with: one, or exactly two. -/
  slashes : Nat
  parts : List CodeText
deriving DecidableEq, Repr, Inhabited

namespace Path

/-- Empty and `.` parts are left out; `..` stays, since it may lead through a link. -/
def ofText (text : CodeText) : Path :=
  let leading := (text.takeWhile (· == .char '/')).length
  let parts := (text.splitOn (.char '/')).filter fun piece => piece ≠ [] ∧ piece ≠ "."
  ⟨if leading = 2 then 2 else min leading 1, parts⟩

def isAbsolute (path : Path) : Bool :=
  path.slashes != 0

/-- The path as text. The empty one is the working directory. -/
def text (path : Path) : CodeText :=
  if path.slashes = 0 ∧ path.parts = [] then "."
  else List.replicate path.slashes (.char '/') ++ List.intercalate "/" path.parts

/-- A path taken from a directory, unless it is absolute. -/
def relativeTo (directory path : Path) : Path :=
  if path.isAbsolute then path else ⟨directory.slashes, directory.parts ++ path.parts⟩

/-- The path without its last part. -/
def parent (path : Path) : Path :=
  { path with parts := path.parts.dropLast }

end Path

end MemoryBoard
