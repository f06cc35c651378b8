set_option autoImplicit false

namespace MemoryBoard

variable {α β : Type} (give : α → Option β)

def latest? (xs : List α) : Option β :=
  xs.reverse.findSome? give

@[simp] theorem latest?_nil : latest? give [] = none := rfl

/-- The first element counts only where no later one gives anything. -/
theorem latest?_cons (x : α) (xs : List α) :
    latest? give (x :: xs) = (latest? give xs).or (give x) := by
  rw [latest?, List.reverse_cons, List.findSome?_append, latest?]
  congr 1
  simp only [List.findSome?_cons, List.findSome?_nil]
  cases give x <;> rfl

theorem latest?_append (xs ys : List α) :
    latest? give (xs ++ ys) = (latest? give ys).or (latest? give xs) := by
  rw [latest?, List.reverse_append, List.findSome?_append, latest?, latest?]

theorem latest?_concat (xs : List α) (x : α) :
    latest? give (xs ++ [x]) = (give x).or (latest? give xs) := by
  rw [latest?_append, latest?_cons, latest?_nil, Option.none_or]

theorem latest?_eq_none_iff {xs : List α} :
    latest? give xs = none ↔ ∀ x ∈ xs, give x = none := by
  simp only [latest?, List.findSome?_eq_none_iff, List.mem_reverse]

theorem exists_of_latest?_eq_some {xs : List α} {b : β} (given : latest? give xs = some b) :
    ∃ x ∈ xs, give x = some b := by
  obtain ⟨x, member, gives⟩ := List.exists_of_findSome?_eq_some given
  exact ⟨x, List.mem_reverse.mp member, gives⟩

end MemoryBoard
