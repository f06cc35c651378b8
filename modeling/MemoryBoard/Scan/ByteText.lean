import MemoryBoard.Bytes
import MemoryBoard.Scan.Number

set_option autoImplicit false

namespace MemoryBoard.Scan

/-- Reads on from `offset` in `whole`; `done` holds the bytes so far, latest first. -/
def byteTextFrom (whole : String) (offset : Nat) (done : Bytes) :
    List Char → Except ScanError Bytes
  | [] => .ok done.reverse
  | c :: rest =>
    if c ≠ '\x5c' then
      if c.toNat ≤ 0xff then byteTextFrom whole (offset + 1) (UInt8.ofNat c.toNat :: done) rest
      else .error (.wideCharacter c)
    else match rest with
      | [] => .error (.badEscape offset whole)
      | escape :: tail =>
        if escape = '\x5c' ∨ escape = '\x22' then
          byteTextFrom whole (offset + 2) (UInt8.ofNat escape.toNat :: done) tail
        else if '0' ≤ escape ∧ escape ≤ '3' then
          match tail with
          | second :: third :: tail =>
            match octalByte [escape, second, third] with
            | .ok byte => byteTextFrom whole (offset + 4) (byte :: done) tail
            | .error error => .error error
          | short => .error (.fewOctalDigits (String.ofList (escape :: short)))
        else if escape = 'x' then
          match tail with
          | high :: low :: tail =>
            match hexByte [high, low] with
            | .ok byte => byteTextFrom whole (offset + 4) (UInt8.ofNat byte :: done) tail
            | .error error => .error error
          | short => .error (.fewHexDigits 2 (String.ofList short))
        else .error (.badEscape offset whole)

def byteText (text : String) : Except ScanError Bytes :=
  byteTextFrom text 0 [] text.toList

end MemoryBoard.Scan
