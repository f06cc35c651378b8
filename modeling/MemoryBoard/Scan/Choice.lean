import MemoryBoard.Scan.Error

set_option autoImplicit false

namespace MemoryBoard.Scan

/-- The position of `text` in `table`, the first one if it stands there twice. -/
def choice (table : List String) (text : String) : Except ScanError Nat :=
  match table.findIdx? (· == text) with
  | some index => .ok index
  | none => .error (.notAmong text table)

def boolean (text : String) : Except ScanError Bool :=
  if text = "true" then .ok true
  else if text = "false" then .ok false
  else .error (.notBoolean text)

/-- Country codes the radio firmware knows. -/
def countryCodes : List String := [
  "US", "CA", "DZ", "DE", "NL", "IT", "PT", "LU", "NO", "FI", "DK", "CH", "CZ", "ES", "GB", "KR",
  "CN", "FR", "HK", "SG", "TW", "BR", "IL", "SA", "LB", "AE", "ZA", "AR", "AU", "AT", "BO", "CL",
  "GR", "IS", "IN", "IE", "KW", "LI", "LT", "MX", "MA", "NZ", "PL", "PR", "SK", "SI", "TH", "UY",
  "PA", "RU", "EG", "TT", "TR", "CR", "EC", "HN", "KE", "UA", "VN", "BG", "CY", "EE", "MU", "RO",
  "CS", "ID", "PE", "VE", "JM", "BH", "OM", "JO", "BM", "CO", "DO", "GT", "PH", "LK", "SV", "TN",
  "PK", "QA", "JP3"]

def countryCode (text : String) : Except ScanError String :=
  (choice countryCodes text).map fun _ => text

def videoSystems : List String := ["ntsc", "pal"]

def videoSystem (text : String) : Except ScanError Nat :=
  choice videoSystems text

def memoryTypes : List String := ["ram", "rom"]

/-- Whether the named kind of memory is read-only. -/
def memoryType (text : String) : Except ScanError Bool :=
  (choice memoryTypes text).map (· == 1)

end MemoryBoard.Scan
