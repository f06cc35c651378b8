import MemoryBoard.Defect
import MemoryBoard.Text.CodeText

set_option autoImplicit false

namespace MemoryBoard

open Text

structure Radio where
  country : CodeText := []
  ssid : CodeText := []
  password : CodeText := []
deriving DecidableEq, Repr, Inhabited

structure Video where
  system : Int := 0
  address : Int := 0
deriving DecidableEq, Repr, Inhabited

structure DiskSlot where
  file : CodeText := []
  readonly : Bool := false
deriving DecidableEq, Repr, Inhabited

/-- Disk drives of the floppy controller. -/
abbrev driveCount : Nat := 4

structure Floppy where
  enabled : Bool := false
  optswitch : Bool := false
  usrram : Int := 0
  sysram : Int := 0
  disks : Vector DiskSlot driveCount := Vector.replicate driveCount {}
deriving DecidableEq, Repr, Inhabited

structure BoardConfig where
  wifi : Radio := {}
  video : Video := {}
  fdc : Floppy := {}
deriving DecidableEq, Repr, Inhabited

namespace BoardConfig

-- The width of each text counts the zero at its end.

def countryWidth : Nat := 4

def ssidWidth : Nat := 32

def passwordWidth : Nat := 64

def fileWidth : Nat := 64

/-- A text in a field of fixed width: as many bytes as leave room for a zero. -/
def textField (width : Nat) (text : CodeText) : Except Defect Bytes :=
  match text.utf8? with
  | none => .error .unencodable
  | some bytes => .ok (Bytes.padded width (bytes.take (width - 1)))

def word (number : Int) : Except Defect Bytes :=
  match Bytes.packed? 2 number with
  | none => .error .unpackable
  | some bytes => .ok bytes

def flag (value : Bool) : Bytes :=
  [if value then 1 else 0]

def diskRecord (disk : DiskSlot) : Except Defect Bytes := do
  return (← textField fileWidth disk.file) ++ flag disk.readonly

/-- The record in flash. A text may have no UTF-8 form, and a number may not fit its field. -/
def pack (config : BoardConfig) : Except Defect Bytes := do
  let country ← textField countryWidth config.wifi.country
  let ssid ← textField ssidWidth config.wifi.ssid
  let password ← textField passwordWidth config.wifi.password
  let system ← word config.video.system
  let address ← word config.video.address
  let usrram ← word config.fdc.usrram
  let sysram ← word config.fdc.sysram
  let disks ← config.fdc.disks.toList.mapM diskRecord
  return country ++ ssid ++ password ++ system ++ address ++ flag config.fdc.enabled ++
    flag config.fdc.optswitch ++ usrram ++ sysram ++ disks.flatten

end BoardConfig

end MemoryBoard
