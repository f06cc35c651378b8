set_option autoImplicit false

namespace MemoryBoard

/-- A quotient rounded to the nearest whole number, a tie to the even one. -/
def roundDiv (n divisor : Nat) : Nat :=
  let whole := n / divisor
  let twice := 2 * (n % divisor)
  if divisor < twice ∨ (twice = divisor ∧ whole % 2 = 1) then whole + 1 else whole

/-- The nearest number with 53 significant bits. -/
def toDouble (n : Nat) : Nat :=
  let excess := n.log2 + 1 - 53
  roundDiv n (1 <<< excess) <<< excess

/-- How many places the quotient of two small numbers moves to the left until its whole part has 53
bits. -/
def quotientShift (n divisor : Nat) : Nat :=
  let shift := 52 + divisor.log2 - n.log2
  if (n <<< shift) / divisor < 1 <<< 52 then shift + 1 else shift

/-- The whole part of `n / divisor * factor`, where the quotient and then the product are rounded to
53 significant bits. -/
def scaled (n divisor factor : Nat) : Nat :=
  let shift := quotientShift n divisor
  toDouble (roundDiv (n <<< shift) divisor * factor) >>> shift

end MemoryBoard
