import MemoryBoard.Chunks

set_option autoImplicit false

namespace MemoryBoard

/-- There are as many pieces as it takes to hold all elements, the last of them perhaps short. -/
theorem length_chunks {α : Type} {size : Nat} (positive : 0 < size) (xs : List α) :
    (chunks size xs).length = (xs.length + size - 1) / size := by
  fun_induction chunks size xs with
  | case1 xs ended =>
    have nothing : xs = [] := by
      rcases ended with nothing | zero
      · exact nothing
      · omega
    rw [nothing, List.length_nil, List.length_nil, Nat.zero_add]
    exact (Nat.div_eq_of_lt (by omega)).symm
  | case2 xs ended ih =>
    have present : 0 < xs.length := by
      apply List.length_pos_iff.mpr
      intro nothing
      exact ended (Or.inl nothing)
    rw [List.length_cons, ih, List.length_drop]
    by_cases last : xs.length ≤ size
    · have zero : (xs.length - size + size - 1) / size = 0 := Nat.div_eq_of_lt (by omega)
      have one : (xs.length + size - 1) / size = 1 := by
        apply Nat.div_eq_of_lt_le
        · omega
        · omega
      rw [zero, one]
    · have shift : xs.length + size - 1 = xs.length - size + size - 1 + size := by omega
      rw [shift, Nat.add_div_right _ positive]

/-- A piece is what lies at its place in the list. -/
theorem getElem?_chunks {α : Type} {size : Nat} (positive : 0 < size) (xs : List α)
    (index : Nat) : (chunks size xs)[index]? =
      if size * index < xs.length then some ((xs.drop (size * index)).take size) else none := by
  induction index generalizing xs with
  | zero =>
    rw [Nat.mul_zero, List.drop_zero]
    cases xs with
    | nil =>
      rw [chunks_nil]
      rfl
    | cons x rest =>
      rw [chunks_of_ne_nil (List.cons_ne_nil x rest) positive, List.getElem?_cons_zero,
        if_pos (List.length_pos_iff.mpr (List.cons_ne_nil x rest))]
  | succ index ih =>
    by_cases present : xs = []
    · have nothing : ¬ size * (index + 1) < xs.length := by
        rw [present]
        exact Nat.not_lt_zero _
      rw [if_neg nothing, present, chunks_nil]
      rfl
    · have inside : size * index < xs.length - size ↔ size * (index + 1) < xs.length := by
        rw [Nat.mul_succ]
        omega
      rw [chunks_of_ne_nil present positive, List.getElem?_cons_succ, ih, List.length_drop,
        List.drop_drop, Nat.add_comm size, ← Nat.mul_succ]
      simp only [inside]

theorem ne_nil_of_mem_chunks {α : Type} {size : Nat} {xs piece : List α}
    (member : piece ∈ chunks size xs) : piece ≠ [] ∧ piece.length ≤ size := by
  fun_induction chunks size xs with
  | case1 xs ended => cases member
  | case2 xs ended ih =>
    rcases List.mem_cons.mp member with first | later
    · have bounds : xs ≠ [] ∧ size ≠ 0 := not_or.mp ended
      rw [first]
      constructor
      · intro nothing
        rcases List.take_eq_nil_iff.mp nothing with zero | empty
        · exact bounds.2 zero
        · exact bounds.1 empty
      · rw [List.length_take]
        omega
    · exact ih later

theorem length_flatMap_of_length {α β : Type} {size : Nat} {f : β → List α} {xs : List β}
    (each : ∀ x ∈ xs, (f x).length = size) : (xs.flatMap f).length = size * xs.length := by
  induction xs with
  | nil => rfl
  | cons x rest ih =>
    obtain ⟨first, others⟩ := List.forall_mem_cons.mp each
    rw [List.flatMap_cons, List.length_append, first, ih others, List.length_cons, Nat.mul_succ,
      Nat.add_comm]

/-- A list of pieces of one length comes apart into these pieces. -/
theorem chunks_flatMap {α β : Type} {size : Nat} {f : β → List α} {xs : List β}
    (positive : 0 < size) (each : ∀ x ∈ xs, (f x).length = size) :
    chunks size (xs.flatMap f) = xs.map f := by
  induction xs with
  | nil => exact chunks_nil size
  | cons x rest ih =>
    have first : (f x).length = size := each x List.mem_cons_self
    have present : f x ++ rest.flatMap f ≠ [] := by
      intro nothing
      have empty := (List.append_eq_nil_iff.mp nothing).1
      rw [empty, List.length_nil] at first
      omega
    have later := ih fun y member => each y (List.mem_cons_of_mem x member)
    rw [List.flatMap_cons, chunks_of_ne_nil present positive, List.take_left' first,
      List.drop_left' first, later, List.map_cons]

/-- Behind whole pieces the cutting goes on as if nothing stood in front. -/
theorem chunks_append {α : Type} {size : Nat} (positive : 0 < size) {xs ys : List α}
    (whole : xs.length % size = 0) : chunks size (xs ++ ys) = chunks size xs ++ chunks size ys := by
  fun_induction chunks size xs with
  | case1 xs ended =>
    have nothing : xs = [] := by
      rcases ended with nothing | zero
      · exact nothing
      · omega
    rw [nothing, List.nil_append, List.nil_append]
  | case2 xs ended ih =>
    have bounds : xs ≠ [] ∧ size ≠ 0 := not_or.mp ended
    have room : size ≤ xs.length := by
      apply Nat.le_of_not_lt
      intro short
      rw [Nat.mod_eq_of_lt short] at whole
      exact bounds.1 (List.length_eq_zero_iff.mp whole)
    have rest : (xs.drop size).length % size = 0 := by
      rw [List.length_drop, ← Nat.mod_eq_sub_mod room]
      exact whole
    have present : xs ++ ys ≠ [] := List.append_ne_nil_of_left_ne_nil bounds.1 ys
    rw [chunks_of_ne_nil present positive, List.take_append_of_le_length room,
      List.drop_append_of_le_length room, ih rest, List.cons_append]

end MemoryBoard
