import MemoryBoard.Bytes
import MemoryBoard.Rounding
import MemoryBoard.Text.Lines

set_option autoImplicit false

/- UTF-8, and the text of a file. A file that is not UTF-8 still gives the text in front of the read
that meets the first bad byte, since files are read in pieces. -/
namespace MemoryBoard.Text

def encodeUtf8 (text : List Char) : Bytes :=
  text.flatMap String.utf8EncodeChar

/-- What keeps bytes from being UTF-8. -/
inductive Utf8Fault where
  /-- The byte at this index cannot stand there. -/
  | badByte (index : Nat)
  /-- The bytes end inside a character. -/
  | truncated
deriving DecidableEq, Repr

def isContinuation (byte : UInt8) : Bool :=
  0x80 ≤ byte.toNat && byte.toNat ≤ 0xbf

/-- The second bytes that may follow a lead byte: no overlong form, nothing past the last code
point. -/
def mayFollow (lead second : UInt8) : Bool :=
  let low := if lead = 0xe0 then 0xa0 else if lead = 0xf0 then 0x90 else 0x80
  let high := if lead = 0xf4 then 0x8f else 0xbf
  low ≤ second.toNat && second.toNat ≤ high

/-- Whether two bytes begin a surrogate, which is refused when its third byte comes. -/
def beginsSurrogate (lead second : UInt8) : Bool :=
  lead = 0xed && 0xa0 ≤ second.toNat

def codePoint (lead : Nat) (continuations : List UInt8) : Char :=
  Char.ofNat (continuations.foldl (fun code byte => code * 64 + byte.toNat % 64) lead)

/-- Reads on at `index` with the characters so far in `done`, latest first. -/
def decodeUtf8From (index : Nat) (done : List Char) : Bytes → List Char × Option Utf8Fault
  | [] => (done.reverse, none)
  | lead :: rest =>
    let stop (fault : Utf8Fault) := (done.reverse, some fault)
    let code := lead.toNat
    if code < 0x80 then decodeUtf8From (index + 1) (Char.ofNat code :: done) rest
    else if code < 0xc2 || 0xf4 < code then stop (.badByte index)
    else match rest with
      | [] => stop .truncated
      | second :: rest =>
        if !mayFollow lead second then stop (.badByte (index + 1))
        else if code < 0xe0 then
          decodeUtf8From (index + 2) (codePoint (code % 32) [second] :: done) rest
        else match rest with
          | [] => stop .truncated
          | third :: rest =>
            if beginsSurrogate lead second || !isContinuation third then stop (.badByte (index + 2))
            else if code < 0xf0 then
              decodeUtf8From (index + 3) (codePoint (code % 16) [second, third] :: done) rest
            else match rest with
              | [] => stop .truncated
              | fourth :: rest =>
                if !isContinuation fourth then stop (.badByte (index + 3))
                else
                  let c := codePoint (code % 8) [second, third, fourth]
                  decodeUtf8From (index + 4) (c :: done) rest

/-- The characters in front of the first fault, and that fault. -/
def decodeUtf8 (bytes : Bytes) : List Char × Option Utf8Fault :=
  decodeUtf8From 0 [] bytes

/-- Every end of line becomes a line feed. -/
def unifyLineEnds (done : List Char) : List Char → List Char
  | [] => done.reverse
  | '\r' :: '\n' :: rest => unifyLineEnds ('\n' :: done) rest
  | '\r' :: rest => unifyLineEnds ('\n' :: done) rest
  | c :: rest => unifyLineEnds (c :: done) rest

/-- Bytes taken from a file at a time. -/
def readSize : Nat := 8192

/-- The characters that take up to `room` bytes together. -/
def takeBytes (done : List Char) (room : Nat) : List Char → List Char
  | [] => done.reverse
  | c :: rest =>
    if room < c.utf8Size then done.reverse
    else takeBytes (c :: done) (room - c.utf8Size) rest

/-- The bytes that characters take together. -/
def byteLength (text : List Char) : Nat :=
  text.foldl (fun length c => length + c.utf8Size) 0

/-- The characters that the next `room` bytes give. A carriage return at their end waits for the
read after that, which may bring a line feed. -/
def readyChars (room : Nat) (text : List Char) : List Char :=
  let taken := takeBytes [] room text
  if taken.getLast? = some '\r' then taken.dropLast else taken

/-- The text of a file for a reader of lines, who takes always the same number of bytes. -/
def Source.ofFile (bytes : Bytes) : Source :=
  match decodeUtf8 bytes with
  | (text, none) => ⟨unifyLineEnds [] text, none⟩
  | (text, some fault) =>
    let room := match fault with
      | .truncated => bytes.length
      | .badByte index => index / readSize * readSize
    ⟨unifyLineEnds [] (readyChars room text), some .undecodable⟩

/-- Where a read of `size` bytes from `position` on ends, unless it meets the fault. -/
def Utf8Fault.readEnd? (fault : Utf8Fault) (total position size : Nat) : Option Nat :=
  match fault with
  | .badByte index => if position + size ≤ index then some (position + size) else none
  | .truncated => if position < total then some (min (position + size) total) else none

/-- What a reader of characters has taken from a file. -/
structure Intake where
  /-- The bytes so far. -/
  position : Nat
  /-- The characters so far, each end of line counted as one. -/
  count : Nat
  /-- How many bytes the last read took. -/
  bytes : Nat
  /-- How many characters it gave. -/
  chars : Nat
  /-- Bytes taken of the characters that are not ready yet. -/
  held : Nat
  /-- The characters that are not ready yet. -/
  rest : List Char

/-- How many bytes a reader takes next who wants `load` characters at a time. That is more than
usual if the characters still missing need it, by the measure of the last read. -/
def Intake.nextSize (load : Nat) (intake : Intake) : Nat :=
  max readSize (scaled intake.bytes intake.chars (load - intake.count % load))

def Intake.advance (intake : Intake) (position : Nat) : Intake :=
  let bytes := position - intake.position
  let ready := readyChars (intake.held + bytes) intake.rest
  let chars := (unifyLineEnds [] ready).length
  { position
    count := intake.count + chars
    bytes := if chars = 0 then 0 else bytes
    chars
    held := intake.held + bytes - byteLength ready
    rest := intake.rest.drop ready.length }

/-- The characters in front of the read that meets the fault. -/
def Intake.countTo (load total : Nat) (fault : Utf8Fault) (intake : Intake) : Nat :=
  match fault.readEnd? total intake.position (intake.nextSize load) with
  | none => intake.count
  | some position =>
    if intake.position < position ∧ position ≤ total then
      countTo load total fault (intake.advance position)
    else intake.count
termination_by total - intake.position
decreasing_by simp only [advance]; omega

/-- The text of a file for a reader who takes `load` characters at a time. -/
def Source.ofFileInLoads (load : Nat) (bytes : Bytes) : Source :=
  match decodeUtf8 bytes with
  | (text, none) => ⟨unifyLineEnds [] text, none⟩
  | (text, some fault) =>
    let count := Intake.countTo load bytes.length fault ⟨0, 0, 0, 0, 0, text⟩
    ⟨(unifyLineEnds [] text).take count, some .undecodable⟩

end MemoryBoard.Text
