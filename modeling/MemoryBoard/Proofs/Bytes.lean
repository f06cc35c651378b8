import MemoryBoard.Bytes

set_option autoImplicit false

namespace MemoryBoard.Bytes

theorem getElem?_evens_odds (bytes : Bytes) (i : Nat) :
    bytes.evens[i]? = bytes[2 * i]? ∧ bytes.odds[i]? = bytes[2 * i + 1]? := by
  induction bytes generalizing i with
  | nil => exact ⟨rfl, rfl⟩
  | cons byte rest ih =>
    constructor
    · rw [evens_cons]
      cases i with
      | zero => rfl
      | succ i =>
        rw [List.getElem?_cons_succ, (ih i).2]
        rfl
    · rw [odds_cons, List.getElem?_cons_succ, (ih i).1]

theorem getElem?_evens (bytes : Bytes) (i : Nat) : bytes.evens[i]? = bytes[2 * i]? :=
  (getElem?_evens_odds bytes i).1

theorem length_evens (bytes : Bytes) : bytes.evens.length = (bytes.length + 1) / 2 :=
  (length_evens_odds bytes).1

theorem padded_of_le {width : Nat} {bytes : Bytes} (long : width ≤ bytes.length) :
    bytes.padded width = bytes := by
  rw [padded, Nat.sub_eq_zero_of_le long, List.replicate_zero, List.append_nil]

theorem padded_append {front rest : Bytes} {size width : Nat} (length : front.length = size) :
    padded (size + width) (front ++ rest) = front ++ padded width rest := by
  rw [padded, padded, List.length_append, length, Nat.add_sub_add_left, List.append_assoc]

/-- What a changed byte adds to a sum. -/
theorem sum_set {bytes : Bytes} {index : Nat} {old : UInt8} (present : bytes[index]? = some old)
    (new : UInt8) : sum (bytes.set index new) + old.toNat = bytes.sum + new.toNat := by
  induction bytes generalizing index with
  | nil => cases present
  | cons first rest ih =>
    cases index with
    | zero =>
      cases present
      simp only [List.set_cons_zero, sum, List.foldr_cons]
      omega
    | succ index =>
      have later := ih present
      simp only [List.set_cons_succ, sum, List.foldr_cons] at later ⊢
      omega

/-- A changed byte shows in the low byte of a sum. -/
theorem eq_of_sum_set {bytes : Bytes} {index : Nat} {old new : UInt8}
    (present : bytes[index]? = some old)
    (same : sum (bytes.set index new) % 256 = bytes.sum % 256) : new = old := by
  have change := sum_set present new
  have room := old.toNat_lt
  have otherRoom := new.toNat_lt
  apply UInt8.toNat_inj.mp
  omega

end MemoryBoard.Bytes
