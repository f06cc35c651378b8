set_option autoImplicit false

namespace MemoryBoard.Text

/-- White space in the Unicode sense, the four information separators included. -/
def isBlank (c : Char) : Bool :=
  let code := c.toNat
  (0x09 ≤ code && code ≤ 0x0d) || (0x1c ≤ code && code ≤ 0x20) || code == 0x85 || code == 0xa0 ||
  code == 0x1680 || (0x2000 ≤ code && code ≤ 0x200a) || code == 0x2028 || code == 0x2029 ||
  code == 0x202f || code == 0x205f || code == 0x3000

/-- Drops the last elements as long as `p` holds. -/
def dropWhileEnd {α : Type} (p : α → Bool) (xs : List α) : List α :=
  (xs.reverse.dropWhile p).reverse

/-- The text without the white space at its two ends. -/
def strip (text : List Char) : List Char :=
  dropWhileEnd isBlank (text.dropWhile isBlank)

end MemoryBoard.Text
