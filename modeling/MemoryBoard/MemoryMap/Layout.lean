import MemoryBoard.Files.Tree
import MemoryBoard.Memory.Image
import MemoryBoard.MemoryMap.Segment

set_option autoImplicit false

/- The image that a list of segments describes. Later segments lie over earlier ones. Addresses that
no segment reaches keep the fill byte of the first one and are disabled and read-only. -/
namespace MemoryBoard

inductive LayoutError where
  | image (error : ImageError)
  | unreadable (file : Text.CodeText) (error : SystemError)
  | misfit (file : Text.CodeText) (start : Int)
  | defect (cause : Defect)
deriving DecidableEq, Repr

def LayoutError.message : LayoutError → Text.CodeText
  | image error => error.message
  | unreadable file error => "Can't open file '" ++ file ++ s!"': {error.reason}"
  | misfit file start => "file '" ++ file ++ s!"' does not fit at 0x{Text.hexNumber 4 start}"
  | defect _ => "Incomplete segment"

namespace Layout

/-- Where files are and what they hold. -/
structure Setting where
  /-- Where relative file names start from, for segments without a path of their own. -/
  directory : Option Path
  content : Path → Except FileError Bytes

def Setting.pathOf (setting : Setting) (segment : Segment) (file : Text.CodeText) : Path :=
  match segment.path, setting.directory with
  | some path, _ => path
  | none, none => .ofText file
  | none, some directory => directory.relativeTo (.ofText file)

def needed (address : Option Int) : Except LayoutError Int :=
  match address with
  | some address => .ok address
  | none => .error (.defect .missingAddress)

def onImage {α : Type} (result : Except ImageError α) : Except LayoutError α :=
  result.mapError .image

/-- As much of a file as could lie above `start`, and one byte more to tell that it is too long.
Where that is one less than nothing, the whole file is taken. -/
def clip (start : Int) (content : Bytes) : Except LayoutError Bytes :=
  let room := addressCount - start + 1
  if room < -1 then .error (.defect .negativeLength)
  else if room = -1 then .ok content
  else .ok (content.take room.toNat)

/-- The bytes that a segment takes from its file. -/
def payload (setting : Setting) (segment : Segment) (file : Text.CodeText) :
    Except LayoutError Bytes :=
  match setting.content (setting.pathOf segment file) with
  | .error (.system _ error) => .error (.unreadable file error)
  | .error (.defect cause) => .error (.defect cause)
  | .ok content => do
    let start ← needed segment.start
    let payload ← clip start content
    if start + payload.length > addressCount then .error (.misfit file start)
    else .ok payload

/-- A segment of unset type is read-only if it is the first. -/
def accessOf (segment : Segment) (first : Bool) : Access where
  enabled := segment.enabled.getD false
  readonly := segment.readonly.getD first

def placeFill (segment : Segment) (image : Image) : Except LayoutError Image :=
  match segment.fill with
  | none => .ok image
  | some fill => do
    let start ← needed segment.start
    onImage (image.fillData start (← needed segment.last) fill)

def placeData (segment : Segment) (image : Image) : Except LayoutError Image :=
  match segment.data with
  | some (byte :: rest) => do
    onImage (image.writeData (← needed segment.start) (byte :: rest))
  | _ => .ok image

def placeFile (setting : Setting) (segment : Segment) (image : Image) :
    Except LayoutError Image :=
  match segment.file with
  | none => .ok image
  | some file => do
    let payload ← payload setting segment file
    onImage (image.writeData (← needed segment.start) payload)

def placeAccess (segment : Segment) (first : Bool) (image : Image) :
    Except LayoutError Image := do
  let access := (accessOf segment first).byte.toNat
  onImage (image.setAttributes (← needed segment.start) segment.count access)

/-- Lays one segment over an image: its fill, then its data, then its file. -/
def place (setting : Setting) (first : Bool) (image : Image) (segment : Segment) :
    Except LayoutError Image := do
  let image ← placeFill segment image
  let image ← placeData segment image
  let image ← placeFile setting segment image
  placeAccess segment first image

/-- The segment that could not be placed, by its position. -/
structure Failure where
  index : Nat
  error : LayoutError
deriving DecidableEq, Repr

/-- Lays the segments from position `index` on over an image. -/
def placeFrom (setting : Setting) (index : Nat) (image : Image) :
    List Segment → Except Failure Image
  | [] => .ok image
  | segment :: rest =>
    match place setting (index == 0) image segment with
    | .error error => .error ⟨index, error⟩
    | .ok image => placeFrom setting (index + 1) image rest

/-- The image before any segment is placed. -/
def background (segments : List Segment) : Image :=
  .uniform ((segments.head?.bind Segment.fill).getD 0) Access.vacant.byte.toNat

def build (setting : Setting) (segments : List Segment) : Except Failure Image :=
  placeFrom setting 0 (background segments) segments

/-- What placing a segment reports. -/
def placeEntry (segment : Segment) (first : Bool) : LogEntry :=
  let start := segment.start.getD 0
  let last := Text.hexNumber 4 (start + segment.count - 1)
  let access := (accessOf segment first).byte.toNat
  ⟨"image", s!"segment {Text.hexNumber 4 start}-{last} attr={access}"⟩

/-- What building reports about the segments it placed. -/
def log (segments : List Segment) (result : Except Failure Image) : List LogEntry :=
  let placed := match result with
    | .ok _ => segments
    | .error failure => segments.take failure.index
  placed.zipIdx.map fun (segment, index) => placeEntry segment (index == 0)

end Layout

end MemoryBoard
