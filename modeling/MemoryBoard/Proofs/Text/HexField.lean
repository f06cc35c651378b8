import MemoryBoard.Proofs.Text.Digits
import MemoryBoard.Scan.Number

set_option autoImplicit false

namespace MemoryBoard.Text

theorem digitValue_digitChar (d : Nat) (small : d < 16) :
    digitValue d.digitChar.toUpper = d := by
  have each : ∀ d < 16, digitValue (Nat.digitChar d).toUpper = d := by decide
  exact each d small

theorem isHexDigit_digitChar (d : Nat) (small : d < 16) :
    isHexDigit d.digitChar.toUpper = true := by
  have each : ∀ d < 16, isHexDigit (Nat.digitChar d).toUpper = true := by decide
  exact each d small

theorem upperHex_of_lt {n : Nat} (small : n < 16) : upperHex n = [n.digitChar.toUpper] := by
  rw [upperHex, Nat.toDigits_of_lt_base small, List.map_singleton]

theorem positional_upperHex (n : Nat) : positional 16 (upperHex n) = n :=
  positional_map_toDigits (by decide) digitValue_digitChar n

/-- What holds of each digit holds all over the digits of a number. -/
theorem forall_mem_upperHex {p : Char → Prop} (each : ∀ d < 16, p (Nat.digitChar d).toUpper)
    (n : Nat) : ∀ c ∈ upperHex n, p c := by
  rw [upperHex, List.forall_mem_map]
  exact forall_mem_toDigits (by decide) each n

theorem upperHex_ne_nil (n : Nat) : upperHex n ≠ [] := by
  rw [upperHex, Ne, List.map_eq_nil_iff]
  exact Nat.toDigits_ne_nil

theorem positional_hexField (width n : Nat) : positional 16 (hexField width n) = n := by
  rw [hexField, List.leftpad, positional_zeros, positional_upperHex]

/-- How many numbers have room in a field of some hex digits. -/
def fieldLimit : Nat → Nat
  | 0 => 1
  | width + 1 => 16 * fieldLimit width

theorem length_hexField (width : Nat) {n : Nat} (positive : 0 < width)
    (room : n < fieldLimit width) : (hexField width n).length = width := by
  have power : fieldLimit width = 16 ^ width := by
    clear positive room
    induction width with
    | zero => rfl
    | succ width ih => rw [fieldLimit, ih, Nat.pow_succ, Nat.mul_comm]
  have short : (upperHex n).length ≤ width := by
    rw [power] at room
    rw [upperHex, List.length_map]
    exact (Nat.length_toDigits_le_iff (by decide) positive).mpr room
  rw [hexField, List.length_leftpad]
  omega

theorem hexField_ne_nil (width n : Nat) : hexField width n ≠ [] :=
  List.append_ne_nil_of_right_ne_nil _ (upperHex_ne_nil n)

theorem forall_mem_hexField {p : Char → Prop} (each : ∀ d < 16, p (Nat.digitChar d).toUpper)
    (width n : Nat) : ∀ c ∈ hexField width n, p c := by
  rw [hexField, List.leftpad]
  exact forall_mem_zeros_append (each 0 (by decide)) (forall_mem_upperHex each n) _

theorem isHexDigit_of_mem_hexField {width n : Nat} {c : Char} (member : c ∈ hexField width n) :
    isHexDigit c = true :=
  forall_mem_hexField (p := (isHexDigit · = true)) isHexDigit_digitChar width n c member

/-- Only zero begins with a zero. -/
theorem head_upperHex {n : Nat} (positive : 0 < n) : (upperHex n).head? ≠ some '0' := by
  have each : ∀ d < 16, 0 < d → some (Nat.digitChar d).toUpper ≠ some '0' := by decide
  obtain ⟨d, rest, leading, small, split⟩ :=
    exists_toDigits_eq_cons (show 1 < 16 by decide) positive
  rw [upperHex, split, List.map_cons, List.head?_cons]
  exact each d small leading

theorem signedField_natCast (width n : Nat) :
    signedField width [] upperHex n = hexField width n := by
  have positive : ¬ (n : Int) < 0 := by omega
  simp only [signedField, positive, ↓reduceIte, List.append_nil, List.nil_append, List.length_nil,
    Nat.sub_zero, Int.natAbs_natCast, hexField]

theorem hexNumber_natCast (width n : Nat) :
    hexNumber width n = String.ofList (hexField width n) := by
  rw [hexNumber, signedField_natCast]

end MemoryBoard.Text
