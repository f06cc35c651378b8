import Mathlib.Data.List.TakeWhile
import MemoryBoard.Text.Blank

set_option autoImplicit false

namespace MemoryBoard.Text

theorem dropWhileEnd_of_all {α : Type} {p : α → Bool} (xs : List α) {ending : List α}
    (all : ∀ x ∈ ending, p x = true) : dropWhileEnd p (xs ++ ending) = dropWhileEnd p xs := by
  have dropped : ∀ x ∈ ending.reverse, p x = true := fun x member =>
    all x (List.mem_reverse.mp member)
  rw [dropWhileEnd, dropWhileEnd, List.reverse_append, List.dropWhile_append_of_pos dropped]

theorem dropWhileEnd_of_none {α : Type} {p : α → Bool} {xs : List α}
    (none : ∀ x ∈ xs, p x = false) : dropWhileEnd p xs = xs := by
  rw [dropWhileEnd, List.reverse_eq_iff]
  cases reversed : xs.reverse with
  | nil => rfl
  | cons x rest =>
    have member : x ∈ xs := by
      rw [← List.mem_reverse, reversed]
      exact List.mem_cons_self
    rw [List.dropWhile_cons_of_neg]
    rw [none x member]
    decide

theorem strip_of_none {text : List Char} (none : ∀ c ∈ text, isBlank c = false) :
    strip text = text := by
  have kept : text.dropWhile isBlank = text := by
    cases text with
    | nil => rfl
    | cons c rest =>
      rw [List.dropWhile_cons_of_neg]
      rw [none c List.mem_cons_self]
      decide
  rw [strip, kept, dropWhileEnd_of_none none]

theorem exists_eq_dropWhileEnd_append {α : Type} (p : α → Bool) (xs : List α) :
    ∃ ending, xs = dropWhileEnd p xs ++ ending ∧ ∀ x ∈ ending, p x = true := by
  refine ⟨(xs.reverse.takeWhile p).reverse, ?_, fun x member => ?_⟩
  · rw [dropWhileEnd, ← List.reverse_append, List.takeWhile_append_dropWhile, List.reverse_reverse]
  · exact List.mem_takeWhile_imp (List.mem_reverse.mp member)

theorem exists_eq_append_strip (text : List Char) :
    ∃ before after, text = before ++ strip text ++ after ∧ (∀ c ∈ before, isBlank c = true) ∧
      ∀ c ∈ after, isBlank c = true := by
  obtain ⟨after, split, back⟩ := exists_eq_dropWhileEnd_append isBlank (text.dropWhile isBlank)
  refine ⟨text.takeWhile isBlank, after, ?_, fun c member => List.mem_takeWhile_imp member, back⟩
  rw [List.append_assoc, strip, ← split, List.takeWhile_append_dropWhile]

/-- White space around a text makes no difference. -/
theorem strip_append {before after : List Char} (text : List Char)
    (front : ∀ c ∈ before, isBlank c = true) (back : ∀ c ∈ after, isBlank c = true) :
    strip (before ++ text ++ after) = strip text := by
  rw [strip, List.append_assoc, List.dropWhile_append_of_pos front, List.dropWhile_append]
  split
  · rename_i empty
    rw [strip, List.isEmpty_iff.mp empty, List.dropWhile_eq_nil_iff.mpr back]
  · rw [dropWhileEnd_of_all _ back, strip]

end MemoryBoard.Text
