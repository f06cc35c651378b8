import MemoryBoard.Config.Board
import MemoryBoard.Diagnostics
import MemoryBoard.Document
import MemoryBoard.Files.Tree
import MemoryBoard.Scan.Choice
import MemoryBoard.Scan.Number

set_option autoImplicit false

/- Reading settings from YAML. A document holds mappings for the radio, the video and the floppy
controller, the last of which holds one for each disk. A later value takes the place of an earlier
one, and values read before an error stay. -/
namespace MemoryBoard.Config

/-- The mappings inside a document. -/
inductive Group where
  | wifi
  | video
  | fdc
  | disk
deriving DecidableEq, Repr

inductive Field where
  | country
  | ssid
  | password
  | system
  | address
  | enabled
  | usrram
  | sysram
  | optswitch
  | file
  | readonly
deriving DecidableEq, Repr

/-- The mapping that a field stands in. -/
def Field.group : Field → Group
  | country => .wifi
  | ssid => .wifi
  | password => .wifi
  | system => .video
  | address => .video
  | enabled => .fdc
  | usrram => .fdc
  | sysram => .fdc
  | optswitch => .fdc
  | file => .disk
  | readonly => .disk

/-- What a key inside a mapping stands for. -/
inductive Target where
  | field (field : Field)
  | disk (index : Fin driveCount)
deriving DecidableEq, Repr

/-- The mappings of a document by their keys. -/
def topKey? (key : String) : Option Group :=
  match key with
  | "wifi" => some .wifi
  | "video" => some .video
  | "fdc" => some .fdc
  | _ => none

def Group.key? (group : Group) (key : String) : Option Target :=
  match group, key with
  | wifi, "country" => some (.field .country)
  | wifi, "ssid" => some (.field .ssid)
  | wifi, "password" => some (.field .password)
  | video, "system" => some (.field .system)
  | video, "address" => some (.field .address)
  | fdc, "enabled" => some (.field .enabled)
  | fdc, "usrram" => some (.field .usrram)
  | fdc, "sysram" => some (.field .sysram)
  | fdc, "optswitch" => some (.field .optswitch)
  | fdc, "disk0" => some (.disk 0)
  | fdc, "disk1" => some (.disk 1)
  | fdc, "disk2" => some (.disk 2)
  | fdc, "disk3" => some (.disk 3)
  | disk, "file" => some (.field .file)
  | disk, "ro" => some (.field .readonly)
  | _, _ => none

/-- How a message names the keys of a mapping. -/
def Group.label : Group → String
  | wifi => "wifi parameter"
  | video => "video parameter"
  | fdc => "fdc parameter"
  | disk => "disk parameter"

end Config

inductive ConfigError where
  | unexpectedEvent (kind : Yaml.EventKind) (line : Option Int)
  | unexpectedEnd
  | notYaml
  | unknownSection (key : Text.CodeText)
  | unknownKey (group : Config.Group) (key : Text.CodeText)
  | badValue (field : Config.Field) (text : Text.CodeText)
  | blankSsid
  | cannotOpen (error : FileError)
  | defect (cause : Defect)
deriving DecidableEq, Repr

namespace ConfigError

private def badConfig (what : String) : String :=
  s!"Bad config file: {what}"

/-- How a message names the value of a field. -/
private def what : Config.Field → String
  | .country => "country code"
  | .ssid => "ssid"
  | .password => "password"
  | .system => "video system"
  | .address => "video memory address"
  | .enabled => "boolean value for 'enabled'"
  | .usrram => "user memory address"
  | .sysram => "system memory address"
  | .optswitch => "boolean value for 'optswitch'"
  | .file => "file"
  | .readonly => "boolean value for 'ro'"

def message : ConfigError → Text.CodeText
  | unexpectedEvent kind line => badConfig (Document.unexpected kind line)
  | unexpectedEnd => badConfig "unexpected end of input"
  | notYaml => badConfig Document.notYaml
  | unknownSection key => "Unexpected section: " ++ key
  | unknownKey group key => s!"Unexpected {group.label}: " ++ key
  | badValue field text => s!"Invalid {what field}: " ++ text
  | blankSsid => "SSID must not be blank"
  | cannotOpen error => s!"Can't open config file: {error.message}"
  | defect _ => "Unreadable text"

end ConfigError

namespace Config

inductive Phase where
  | start
  | stream
  | document
  | top
  /-- Behind the key of a mapping. -/
  | opening (group : Group)
  | inside (group : Group)
  | value (field : Field)
  | stop
deriving DecidableEq, Repr

structure State where
  phase : Phase
  config : BoardConfig
  /-- The disk whose key came last. -/
  disk : Fin driveCount
deriving DecidableEq, Repr

def State.initial (config : BoardConfig) : State := ⟨.start, config, 0⟩

def State.done (state : State) : Bool :=
  state.phase == .stop

/-- What a mapping stands in. -/
def Group.parent : Group → Phase
  | wifi => .top
  | video => .top
  | fdc => .top
  | disk => .inside .fdc

/-- As many characters as leave room for a zero. -/
def cut (width : Nat) (text : Text.CodeText) : Text.CodeText :=
  text.take (width - 1)

/-- The settings with the value of a field put in. -/
def store (config : BoardConfig) (disk : Fin driveCount) (field : Field) (text : Text.CodeText) :
    Except ConfigError BoardConfig :=
  let { wifi, video, fdc } := config
  let scanned {α : Type} (scan : String → Except ScanError α) (put : α → BoardConfig) :
      Except ConfigError BoardConfig :=
    Scan.converted scan text .defect (.badValue field text) put
  let slot := fdc.disks.get disk
  let withSlot (slot : DiskSlot) : BoardConfig :=
    { config with fdc := { fdc with disks := fdc.disks.set disk slot disk.isLt } }
  match field with
  | .country =>
    scanned Scan.countryCode fun country =>
      { config with wifi := { wifi with country } }
  | .ssid =>
    if text = [] then .error .blankSsid
    else .ok { config with wifi := { wifi with ssid := cut BoardConfig.ssidWidth text } }
  | .password =>
    .ok { config with wifi := { wifi with password := cut BoardConfig.passwordWidth text } }
  | .system =>
    scanned Scan.videoSystem fun system =>
      { config with video := { video with system } }
  | .address =>
    scanned Scan.unsigned16 fun address =>
      { config with video := { video with address } }
  | .enabled =>
    scanned Scan.boolean fun enabled => { config with fdc := { fdc with enabled } }
  | .usrram =>
    scanned Scan.unsigned16 fun usrram => { config with fdc := { fdc with usrram } }
  | .sysram =>
    scanned Scan.unsigned16 fun sysram => { config with fdc := { fdc with sysram } }
  | .optswitch =>
    scanned Scan.boolean fun optswitch => { config with fdc := { fdc with optswitch } }
  | .file => .ok (withSlot { slot with file := cut BoardConfig.fileWidth text })
  | .readonly => scanned Scan.boolean fun readonly => withSlot { slot with readonly }

/-- Takes an event, or rejects it and changes nothing. -/
def feed (state : State) (event : Yaml.Event) : State × Option ConfigError :=
  match state.phase, event.kind with
  | .start, .streamStart => ({ state with phase := .stream }, none)
  | .stream, .documentStart => ({ state with phase := .document }, none)
  | .stream, .streamEnd => ({ state with phase := .stop }, none)
  | .document, .mappingStart => ({ state with phase := .top }, none)
  | .document, .documentEnd => ({ state with phase := .stream }, none)
  | .top, .scalar =>
    match event.text.string?.bind topKey? with
    | none => (state, some (.unknownSection event.text))
    | some group => ({ state with phase := .opening group }, none)
  | .top, .mappingEnd => ({ state with phase := .document }, none)
  | .opening group, .mappingStart => ({ state with phase := .inside group }, none)
  | .inside group, .scalar =>
    match event.text.string?.bind group.key? with
    | none => (state, some (.unknownKey group event.text))
    | some (.field field) => ({ state with phase := .value field }, none)
    | some (.disk disk) => ({ state with phase := .opening .disk, disk }, none)
  | .inside group, .mappingEnd => ({ state with phase := group.parent }, none)
  | .value field, .scalar =>
    match store state.config state.disk field event.text with
    | .error error => (state, some error)
    | .ok config => ({ state with phase := .inside field.group, config }, none)
  | _, kind => (state, some (.unexpectedEvent kind event.line))

def consume (state : State) (events : List Yaml.Event) : State × Option ConfigError :=
  Document.consume feed State.done .unexpectedEnd state events

/-- Reads the events of a text over some settings. The state holds what was stored up to an
error. -/
def read (config : BoardConfig) (reading : Yaml.Reading) : State × Option ConfigError :=
  let ending : ConfigError := match reading.fault with
    | none => .unexpectedEnd
    | some (.defect cause) => .defect cause
    | some _ => .notYaml
  Document.consume feed State.done ending (.initial config) reading.events

/-- What reading reports when it succeeds. -/
def readEntry (config : BoardConfig) : LogEntry :=
  let country := Text.quote config.wifi.country
  ⟨"config", s!"parsed config for country {country} ssid {Text.quote config.wifi.ssid}"⟩

end Config

end MemoryBoard
