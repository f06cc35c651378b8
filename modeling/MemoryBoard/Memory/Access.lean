set_option autoImplicit false

namespace MemoryBoard

/-- How the board answers at an address. -/
structure Access where
  enabled : Bool
  readonly : Bool
deriving DecidableEq, Repr, Inhabited

namespace Access

/-- Bit 0 set disables the chip, bit 1 set makes the address writable. -/
def byte (access : Access) : UInt8 :=
  (if access.enabled then 0 else 1) ||| (if access.readonly then 0 else 2)

/-- The meaning of any attribute value; bits above the two defined ones do not count. -/
def ofInt (value : Int) : Access where
  enabled := value % 2 == 0
  readonly := value / 2 % 2 == 0

def ofByte (byte : UInt8) : Access :=
  ofInt byte.toNat

/-- Addresses that nothing is placed at. -/
def vacant : Access := ⟨false, true⟩

@[simp] theorem ofByte_byte (access : Access) : ofByte access.byte = access := by
  rcases access with ⟨_ | _, _ | _⟩ <;> rfl

end Access

end MemoryBoard
