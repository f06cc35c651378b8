set_option autoImplicit false

namespace MemoryBoard

abbrev Bytes := List UInt8

namespace Bytes

/-- The `width` low bytes of a number, least significant first. -/
def littleEndian : Nat → Nat → Bytes
  | 0, _ => []
  | width + 1, n => UInt8.ofNat n :: littleEndian width (n / 256)

/-- The number whose bytes are given least significant first. -/
def toNat : Bytes → Nat
  | [] => 0
  | byte :: rest => byte.toNat + 256 * toNat rest

/-- How many numbers `width` bytes tell apart. -/
def limit : Nat → Nat
  | 0 => 1
  | width + 1 => 256 * limit width

@[simp] theorem length_littleEndian (width n : Nat) : (littleEndian width n).length = width := by
  induction width generalizing n with
  | zero => rfl
  | succ width ih => simp [littleEndian, ih]

theorem toNat_lt (bytes : Bytes) : bytes.toNat < limit bytes.length := by
  induction bytes with
  | nil => decide
  | cons byte rest ih =>
    have bound := byte.toNat_lt
    simp only [toNat, List.length_cons, limit]
    omega

theorem toNat_littleEndian (width n : Nat) : (littleEndian width n).toNat = n % limit width := by
  induction width generalizing n with
  | zero => simp [littleEndian, toNat, limit, Nat.mod_one]
  | succ width ih =>
    simp only [littleEndian, toNat, ih, limit, UInt8.toNat_ofNat', Nat.mod_mul]

theorem littleEndian_toNat (bytes : Bytes) : littleEndian bytes.length bytes.toNat = bytes := by
  induction bytes with
  | nil => rfl
  | cons byte rest ih =>
    have bound := byte.toNat_lt
    have high : (byte.toNat + 256 * toNat rest) / 256 = toNat rest := by omega
    have low : UInt8.ofNat (byte.toNat + 256 * toNat rest) = byte := by
      apply UInt8.toNat_inj.mp
      simp only [UInt8.toNat_ofNat']
      omega
    simp only [List.length_cons, toNat, littleEndian, high, low, ih]

/-- An unsigned number of `width` bytes, or nothing if it does not fit. -/
def packed? (width : Nat) (x : Int) : Option Bytes :=
  if 0 ≤ x ∧ x.toNat < limit width then some (littleEndian width x.toNat) else none

theorem packed?_eq_some {width : Nat} {x : Int} {bytes : Bytes} :
    packed? width x = some bytes ↔
      0 ≤ x ∧ x.toNat < limit width ∧ bytes = littleEndian width x.toNat := by
  unfold packed?
  split <;> grind

def sum (bytes : Bytes) : Nat :=
  bytes.foldr (fun byte sum => byte.toNat + sum) 0

/-- The bytes at even and at odd positions: the data and the attributes of a list of cells. -/
def deinterleave (bytes : Bytes) : Bytes × Bytes :=
  bytes.foldr (fun byte rest => (byte :: rest.2, rest.1)) ([], [])

def evens (bytes : Bytes) : Bytes :=
  bytes.deinterleave.1

def odds (bytes : Bytes) : Bytes :=
  bytes.deinterleave.2

@[simp] theorem evens_nil : evens [] = [] := rfl

@[simp] theorem odds_nil : odds [] = [] := rfl

@[simp] theorem evens_cons (byte : UInt8) (rest : Bytes) :
    evens (byte :: rest) = byte :: odds rest := rfl

@[simp] theorem odds_cons (byte : UInt8) (rest : Bytes) :
    odds (byte :: rest) = evens rest := rfl

theorem length_evens_odds (bytes : Bytes) :
    bytes.evens.length = (bytes.length + 1) / 2 ∧ bytes.odds.length = bytes.length / 2 := by
  induction bytes with
  | nil => decide
  | cons byte rest ih =>
    simp only [evens_cons, odds_cons, List.length_cons]
    omega

/-- Zeros behind the bytes up to `width`. -/
def padded (width : Nat) (bytes : Bytes) : Bytes :=
  bytes ++ List.replicate (width - bytes.length) 0

@[simp] theorem length_padded (width : Nat) (bytes : Bytes) :
    (padded width bytes).length = max width bytes.length := by
  simp only [padded, List.length_append, List.length_replicate]
  omega

end Bytes

end MemoryBoard
