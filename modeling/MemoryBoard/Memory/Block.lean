set_option autoImplicit false

namespace MemoryBoard

/-- `count` addresses from `start` on. A file without addresses has its block at 0 and leaves the
place to the caller. -/
structure Block where
  start : Nat
  count : Nat
  hasStart : Bool
deriving DecidableEq, Repr, Inhabited

/-- The last of `count` addresses from `start` on; the one before `start` if there are none. -/
def lastAddress (start count : Int) : Int :=
  start + count - 1

def Block.last (block : Block) : Int :=
  lastAddress block.start block.count

end MemoryBoard
