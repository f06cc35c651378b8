set_option autoImplicit false

namespace MemoryBoard

inductive Defect where
  /-- A text file is not UTF-8. -/
  | undecodable
  /-- A path holds a NUL character. -/
  | nulInPath
  /-- A segment asks for less than nothing of its file. -/
  | negativeLength
  /-- A segment lacks an address that its layout needs. -/
  | missingAddress
  /-- A number does not fit its packed field. -/
  | unpackable
  /-- A text that has to become bytes holds a surrogate. -/
  | unencodable
  /-- A decimal number has more digits than can be converted. -/
  | tooManyDigits
  /-- An escape names no code point. -/
  | beyondCodePoints
  /-- A number is too large for what it should become. -/
  | overflow
  /-- There is no room for a text. -/
  | tooLong
  /-- An option that names a file to open has no value. -/
  | missingFile
  /-- An option that gives a range has no value. -/
  | missingRange
  /-- Any other option that cannot do without a value has none. -/
  | missingValue
deriving DecidableEq, Repr

end MemoryBoard
