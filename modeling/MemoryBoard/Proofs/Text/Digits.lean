import Mathlib.Algebra.Group.Nat.Defs
import Mathlib.Data.List.Induction
import MemoryBoard.Proofs.Text.Ascii

set_option autoImplicit false

namespace MemoryBoard.Text

theorem positional_append (base : Nat) (digits : List Char) (c : Char) :
    positional base (digits ++ [c]) = positional base digits * base + digitValue c := by
  simp only [positional, List.foldl_append, List.foldl_cons, List.foldl_nil]

theorem positional_zeros (base count : Nat) (digits : List Char) :
    positional base (List.replicate count '0' ++ digits) = positional base digits := by
  have zeros : (List.replicate count '0').foldl
      (fun value c => value * base + digitValue c) 0 = 0 := by
    induction count with
    | zero => rfl
    | succ count ih =>
      rw [List.replicate_succ, List.foldl_cons, Nat.zero_mul,
        show digitValue '0' = 0 by decide]
      exact ih
  rw [positional, List.foldl_append, zeros, positional]

/-- A leading digit other than zero counts for as much as its place. -/
theorem pow_le_positional (base : Nat) {first : Char} (some : 0 < digitValue first)
    (rest : List Char) : base ^ rest.length ≤ positional base (first :: rest) := by
  induction rest using List.reverseRecOn with
  | nil => simpa only [positional, List.foldl_cons, List.foldl_nil, Nat.zero_mul, Nat.zero_add]
  | append_singleton rest last ih =>
    rw [← List.cons_append, positional_append, List.length_append, List.length_singleton,
      Nat.pow_succ]
    exact Nat.le_add_right_of_le (Nat.mul_le_mul_right base ih)

theorem forall_mem_zeros_append {p : Char → Prop} {digits : List Char} (zero : p '0')
    (all : ∀ c ∈ digits, p c) (count : Nat) : ∀ c ∈ List.replicate count '0' ++ digits, p c := by
  rw [List.forall_mem_append]
  refine ⟨fun c member => ?_, all⟩
  rw [List.eq_of_mem_replicate member]
  exact zero

theorem hexDigit_toLower (c : Char) :
    isHexDigit c.toLower = isHexDigit c ∧ digitValue c.toLower = digitValue c := by
  by_cases upper : 'A' ≤ c ∧ c ≤ 'Z'
  · have each : ∀ code < 0x80, isHexDigit (Char.ofNat code).toLower = isHexDigit (Char.ofNat code) ∧
        digitValue (Char.ofNat code).toLower = digitValue (Char.ofNat code) := by decide
    have bound : c.toNat ≤ 'Z'.toNat := upper.2
    exact forall_ascii (p := fun c => isHexDigit c.toLower = isHexDigit c ∧
      digitValue c.toLower = digitValue c) each (Nat.lt_of_le_of_lt bound (by decide))
  · have same : c.toLower = c := by
      unfold Char.toLower
      exact dif_neg upper
    rw [same]
    exact ⟨rfl, rfl⟩

theorem positional_toLower (base : Nat) (digits : List Char) :
    positional base (digits.map Char.toLower) = positional base digits := by
  simp only [positional, List.foldl_map, (hexDigit_toLower _).2]

section

variable {base : Nat} (proper : 1 < base)

include proper

/-- What holds of single digits, and is kept when one more is written, holds of the digits of every
number. -/
theorem toDigits_induction {p : Nat → List Char → Prop} (single : ∀ d < base, p d [d.digitChar])
    (further : ∀ n, 0 < n → p n (Nat.toDigits base n) → ∀ d < base,
      p (n * base + d) (Nat.toDigits base n ++ [d.digitChar])) (n : Nat) :
    p n (Nat.toDigits base n) := by
  induction n using Nat.strongRecOn with
  | ind n ih =>
    by_cases small : n < base
    · rw [Nat.toDigits_of_lt_base small]
      exact single n small
    · have positive : 0 < n / base := Nat.div_pos (by omega) (by omega)
      have fewer : n / base < n := Nat.div_lt_self (by omega) proper
      have grown := further (n / base) positive (ih (n / base) fewer) (n % base)
        (Nat.mod_lt n (by omega))
      rwa [Nat.div_add_mod', ← Nat.toDigits_of_base_le proper (by omega)] at grown

/-- Digits written in another way still have the value of the number, if each of them has its. -/
theorem positional_map_toDigits {f : Char → Char}
    (each : ∀ d < base, digitValue (f d.digitChar) = d) (n : Nat) :
    positional base ((Nat.toDigits base n).map f) = n := by
  apply toDigits_induction proper (p := fun n digits => positional base (digits.map f) = n)
  · intro d small
    simp only [List.map_singleton, positional, List.foldl_cons, List.foldl_nil, Nat.zero_mul,
      Nat.zero_add]
    exact each d small
  · intro n _ same d small
    rw [List.map_append, List.map_singleton, positional_append, same, each d small]

theorem positional_toDigits (each : ∀ d < base, digitValue d.digitChar = d) (n : Nat) :
    positional base (Nat.toDigits base n) = n := by
  have same := positional_map_toDigits proper (f := id) each n
  rwa [List.map_id] at same

/-- What holds of each digit holds all over the digits of a number. -/
theorem forall_mem_toDigits {p : Char → Prop} (each : ∀ d < base, p d.digitChar) (n : Nat) :
    ∀ c ∈ Nat.toDigits base n, p c := by
  apply toDigits_induction proper (p := fun _ digits => ∀ c ∈ digits, p c)
  · intro d small
    rw [List.forall_mem_singleton]
    exact each d small
  · intro n _ front d small
    rw [List.forall_mem_append, List.forall_mem_singleton]
    exact ⟨front, each d small⟩

/-- Only zero begins with a zero. -/
theorem exists_toDigits_eq_cons {n : Nat} (positive : 0 < n) :
    ∃ d rest, 0 < d ∧ d < base ∧ Nat.toDigits base n = d.digitChar :: rest := by
  refine toDigits_induction proper
    (p := fun n digits => 0 < n → ∃ d rest, 0 < d ∧ d < base ∧ digits = d.digitChar :: rest)
    ?_ ?_ n positive
  · intro d small positive
    exact ⟨d, [], positive, small, rfl⟩
  · intro n positive front last _ _
    obtain ⟨d, rest, leading, small, split⟩ := front positive
    exact ⟨d, rest ++ [last.digitChar], leading, small, by rw [split, List.cons_append]⟩

end

end MemoryBoard.Text
