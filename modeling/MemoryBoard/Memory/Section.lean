import MemoryBoard.Memory.Image

set_option autoImplicit false

namespace MemoryBoard

/-- The addresses from `start` to `last`. -/
structure Section where
  start : Int
  last : Int
  access : Access
deriving DecidableEq, Repr, Inhabited

namespace Section

def count (run : Section) : Int :=
  run.last - run.start + 1

/-- Gives each run of attribute bytes its addresses, the first one starting at `start`. -/
def place (done : List Section) (start : Nat) : List Bytes → List Section
  | [] => done.reverse
  | run :: rest =>
    let next := start + run.length
    place (⟨start, (next : Int) - 1, .ofByte (run.headD 0)⟩ :: done) next rest

end Section

namespace Image

def attributes (image : Image) : Bytes :=
  (List.range addressCount).map image.attributeAt

/-- The maximal runs of equal attribute bytes, from address 0 up. -/
def sections (image : Image) : List Section :=
  Section.place [] 0 (image.attributes.splitBy (· == ·))

end Image

/-- One document of a memory map that describes the section. -/
def Section.document (run : Section) : String :=
  let enabled := if run.access.enabled then "true" else "false"
  let type := if run.access.readonly then "rom" else "ram"
  s!"---\nstart: 0x{Text.hexNumber 4 run.start}\nend: 0x{Text.hexNumber 4 run.last}\n" ++
    s!"enabled: {enabled}\ntype: {type}\n"

/-- The memory map that lists the sections. -/
def Section.documents (runs : List Section) : String :=
  String.join (runs.map document)

end MemoryBoard
