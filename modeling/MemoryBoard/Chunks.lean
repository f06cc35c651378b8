set_option autoImplicit false

namespace MemoryBoard

/-- Pieces of `size` elements each. There are none of size zero. -/
def chunks {α : Type} (size : Nat) (xs : List α) : List (List α) :=
  if _ended : xs = [] ∨ size = 0 then []
  else xs.take size :: chunks size (xs.drop size)
termination_by xs.length
decreasing_by
  cases xs with
  | nil => simp_all
  | cons _ _ => simp_all; omega

@[simp] theorem chunks_nil {α : Type} (size : Nat) : chunks size ([] : List α) = [] := by
  simp [chunks]

theorem chunks_of_ne_nil {α : Type} {size : Nat} {xs : List α} (nonempty : xs ≠ [])
    (positive : 0 < size) : chunks size xs = xs.take size :: chunks size (xs.drop size) := by
  rw [chunks]
  simp [nonempty, Nat.ne_of_gt positive]

theorem flatten_chunks {α : Type} {size : Nat} (positive : 0 < size) (xs : List α) :
    (chunks size xs).flatten = xs := by
  fun_induction chunks size xs with
  | case1 xs ended => rcases ended with h | h <;> simp_all
  | case2 xs ended ih => simp [ih]

end MemoryBoard
