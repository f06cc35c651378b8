import Mathlib.Algebra.Ring.Nat
import MemoryBoard.Proofs.Config.Packed

set_option autoImplicit false

namespace MemoryBoard

/-- `width` bytes from `offset` on. -/
def Bytes.part (bytes : Bytes) (offset width : Nat) : Bytes :=
  (bytes.drop offset).take width

namespace Bytes

variable {pieces : List Bytes} {widths : List Nat} {piece : Bytes} {index offset width : Nat}

theorem part_append (front piece tail : Bytes) :
    part (front ++ (piece ++ tail)) front.length piece.length = piece := by
  rw [part, List.drop_left, List.take_left]

/-- Among pieces that are put together each is found behind the widths of those in front of it. -/
theorem part_flatten (lengths : pieces.map List.length = widths)
    (there : pieces[index]? = some piece) (offsetEq : (widths.take index).sum = offset)
    (widthEq : widths[index]? = some width) :
    part pieces.flatten offset width = piece := by
  obtain ⟨inside, here⟩ := List.getElem?_eq_some_iff.mp there
  have front : (pieces.take index).flatten.length = offset := by
    rw [List.length_flatten, List.map_take, lengths, offsetEq]
  have wide : piece.length = width := by
    rw [← lengths, List.getElem?_map, there] at widthEq
    exact Option.some.inj widthEq
  have split : pieces = pieces.take index ++ piece :: pieces.drop (index + 1) := by
    rw [← here, List.getElem_cons_drop, List.take_append_drop]
  rw [split, List.flatten_append, List.flatten_cons, ← front, ← wide, part_append]

end Bytes

/-- What the record says of a disk. -/
structure DiskContents where
  file : Bytes
  readonly : Bool
deriving DecidableEq, Repr

/-- What the record says, texts with the zeros behind them. -/
structure Contents where
  country : Bytes
  ssid : Bytes
  password : Bytes
  system : Nat
  address : Nat
  enabled : Bool
  optswitch : Bool
  usrram : Nat
  sysram : Nat
  disks : Vector DiskContents driveCount
deriving DecidableEq, Repr

namespace Contents

/-- A flag is one byte, 0 or 1. -/
def flag? : Bytes → Option Bool
  | [0] => some false
  | [1] => some true
  | _ => none

def disk? (record : Bytes) : Option DiskContents := do
  let readonly ← flag? (record.part 64 1)
  return { file := record.part 0 64, readonly }

/-- Reads a record, each field from its place. -/
def ofRecord? (record : Bytes) : Option Contents := do
  let enabled ← flag? (record.part 104 1)
  let optswitch ← flag? (record.part 105 1)
  let disk0 ← disk? (record.part 110 65)
  let disk1 ← disk? (record.part 175 65)
  let disk2 ← disk? (record.part 240 65)
  let disk3 ← disk? (record.part 305 65)
  return {
    country := record.part 0 4
    ssid := record.part 4 32
    password := record.part 36 64
    system := (record.part 100 2).toNat
    address := (record.part 102 2).toNat
    enabled
    optswitch
    usrram := (record.part 106 2).toNat
    sysram := (record.part 108 2).toNat
    disks := #v[disk0, disk1, disk2, disk3] }

end Contents

/-- Whether a field of some width holds a text: the front of its UTF-8 form, and zeros. -/
structure HoldsText (width : Nat) (text : Text.CodeText) (field : Bytes) : Prop where
  length : field.length = width
  split : ∃ (plain : String) (zeros : Nat), text = plain ∧
    field = plain.toUTF8.data.toList.take (width - 1) ++ List.replicate zeros 0
  ended : field.getLast? = some 0

/-- Whether a record says what the settings are. -/
structure Contents.Says (contents : Contents) (config : BoardConfig) : Prop where
  country : HoldsText 4 config.wifi.country contents.country
  ssid : HoldsText 32 config.wifi.ssid contents.ssid
  password : HoldsText 64 config.wifi.password contents.password
  system : contents.system = config.video.system
  address : contents.address = config.video.address
  enabled : contents.enabled = config.fdc.enabled
  optswitch : contents.optswitch = config.fdc.optswitch
  usrram : contents.usrram = config.fdc.usrram
  sysram : contents.sysram = config.fdc.sysram
  file : ∀ drive : Fin driveCount,
    HoldsText 64 config.fdc.disks[drive].file contents.disks[drive].file
  readonly : ∀ drive : Fin driveCount,
    contents.disks[drive].readonly = config.fdc.disks[drive].readonly

namespace BoardConfig

variable {config : BoardConfig}

theorem encodeUtf8_toList (text : String) :
    Text.encodeUtf8 text.toList = text.toUTF8.data.toList := by
  rw [String.toUTF8, ← String.utf8Encode_toList, List.utf8Encode, List.data_toByteArray]
  rfl

theorem fieldBytes_ofString (width : Nat) (text : String) :
    fieldBytes width text = Bytes.padded width (text.toUTF8.data.toList.take (width - 1)) := by
  rw [fieldBytes, Text.CodeText.utf8?_ofString, encodeUtf8_toList, Option.getD_some]

theorem holdsText_fieldBytes {width : Nat} (positive : 0 < width) {text : Text.CodeText}
    (isPlain : text.IsPlain) : HoldsText width text (fieldBytes width text) := by
  refine ⟨length_fieldBytes positive text, ?_, ?_⟩
  · obtain ⟨plain, rfl⟩ := isPlain
    rw [fieldBytes_ofString, Bytes.padded]
    exact ⟨plain, _, rfl, rfl⟩
  · have room : ((text.utf8?.getD []).take (width - 1)).length < width := by
      rw [List.length_take]
      omega
    rw [fieldBytes, Bytes.padded, List.getLast?_append, List.getLast?_replicate,
      if_neg (by omega)]
    rfl

theorem toNat_word {number : Int} (word : IsWord number) :
    ((Bytes.littleEndian 2 number.toNat).toNat : Int) = number := by
  obtain ⟨positive, bound⟩ := word
  rw [Bytes.toNat_littleEndian, show Bytes.limit 2 = 0x10000 from rfl]
  omega

theorem flag?_flag (value : Bool) : Contents.flag? (flag value) = some value := by
  cases value <;> rfl

def diskContents (disk : DiskSlot) : DiskContents :=
  ⟨fieldBytes 64 disk.file, disk.readonly⟩

theorem disk?_diskBytes (disk : DiskSlot) :
    Contents.disk? (diskBytes disk) = some (diskContents disk) := by
  have file : (diskBytes disk).part 0 64 = fieldBytes 64 disk.file := by
    have found := Bytes.part_append [] (fieldBytes 64 disk.file) (flag disk.readonly)
    rw [length_fieldBytes (by decide)] at found
    exact found
  have readonly : (diskBytes disk).part 64 1 = flag disk.readonly := by
    have found := Bytes.part_append (fieldBytes 64 disk.file) (flag disk.readonly) []
    rw [length_fieldBytes (by decide), List.append_nil] at found
    exact found
  rw [Contents.disk?, file, readonly, flag?_flag]
  rfl

/-- The fields of the record. -/
def pieces (config : BoardConfig) : List Bytes :=
  [fieldBytes 4 config.wifi.country, fieldBytes 32 config.wifi.ssid,
    fieldBytes 64 config.wifi.password, Bytes.littleEndian 2 config.video.system.toNat,
    Bytes.littleEndian 2 config.video.address.toNat, flag config.fdc.enabled,
    flag config.fdc.optswitch, Bytes.littleEndian 2 config.fdc.usrram.toNat,
    Bytes.littleEndian 2 config.fdc.sysram.toNat, diskBytes config.fdc.disks[0],
    diskBytes config.fdc.disks[1], diskBytes config.fdc.disks[2],
    diskBytes config.fdc.disks[3]]

theorem disks_eq {α : Type} (disks : Vector α driveCount) :
    disks = #v[disks[0], disks[1], disks[2], disks[3]] := by
  apply Vector.ext
  intro drive inside
  match drive, inside with
  | 0, _ => rfl
  | 1, _ => rfl
  | 2, _ => rfl
  | 3, _ => rfl

theorem flatten_pieces (config : BoardConfig) : config.pieces.flatten = config.record := by
  have drives : config.fdc.disks.toList = [config.fdc.disks[0], config.fdc.disks[1],
      config.fdc.disks[2], config.fdc.disks[3]] := congrArg Vector.toList (disks_eq _)
  simp only [record, drives, List.flatMap_cons, List.flatMap_nil, pieces, List.flatten_cons,
    List.flatten_nil, List.append_assoc, List.append_nil]
  rfl

/-- How wide they are. -/
def widths : List Nat :=
  [4, 32, 64, 2, 2, 1, 1, 2, 2, 65, 65, 65, 65]

theorem lengths_pieces (config : BoardConfig) : config.pieces.map List.length = widths := by
  simp only [pieces, List.map_cons, List.map_nil, length_diskBytes, Bytes.length_littleEndian,
    length_fieldBytes (show 0 < 4 by decide), length_fieldBytes (show 0 < 32 by decide),
    length_fieldBytes (show 0 < 64 by decide), flag, List.length_singleton, widths]

theorem part_record {offset width : Nat} {piece : Bytes} (index : Nat)
    (there : config.pieces[index]? = some piece) (offsetEq : (widths.take index).sum = offset)
    (widthEq : widths[index]? = some width) : config.record.part offset width = piece := by
  rw [← flatten_pieces]
  exact Bytes.part_flatten (lengths_pieces config) there offsetEq widthEq

/-- What the record says, field by field. -/
def contents (config : BoardConfig) : Contents where
  country := fieldBytes 4 config.wifi.country
  ssid := fieldBytes 32 config.wifi.ssid
  password := fieldBytes 64 config.wifi.password
  system := (Bytes.littleEndian 2 config.video.system.toNat).toNat
  address := (Bytes.littleEndian 2 config.video.address.toNat).toNat
  enabled := config.fdc.enabled
  optswitch := config.fdc.optswitch
  usrram := (Bytes.littleEndian 2 config.fdc.usrram.toNat).toNat
  sysram := (Bytes.littleEndian 2 config.fdc.sysram.toNat).toNat
  disks := config.fdc.disks.map diskContents

theorem ofRecord?_record (config : BoardConfig) :
    Contents.ofRecord? config.record = some config.contents := by
  rw [Contents.ofRecord?, show config.record.part 0 4 = _ from part_record 0 rfl rfl rfl,
    show config.record.part 4 32 = _ from part_record 1 rfl rfl rfl,
    show config.record.part 36 64 = _ from part_record 2 rfl rfl rfl,
    show config.record.part 100 2 = _ from part_record 3 rfl rfl rfl,
    show config.record.part 102 2 = _ from part_record 4 rfl rfl rfl,
    show config.record.part 104 1 = _ from part_record 5 rfl rfl rfl,
    show config.record.part 105 1 = _ from part_record 6 rfl rfl rfl,
    show config.record.part 106 2 = _ from part_record 7 rfl rfl rfl,
    show config.record.part 108 2 = _ from part_record 8 rfl rfl rfl,
    show config.record.part 110 65 = _ from part_record 9 rfl rfl rfl,
    show config.record.part 175 65 = _ from part_record 10 rfl rfl rfl,
    show config.record.part 240 65 = _ from part_record 11 rfl rfl rfl,
    show config.record.part 305 65 = _ from part_record 12 rfl rfl rfl]
  simp only [flag?_flag, disk?_diskBytes]
  rw [contents, disks_eq (config.fdc.disks.map diskContents)]
  simp only [Vector.getElem_map]
  rfl

theorem contents_says (encodable : config.Encodable) (packable : config.Packable) :
    config.contents.Says config := by
  constructor
  case system => exact toNat_word packable.system
  case address => exact toNat_word packable.address
  case usrram => exact toNat_word packable.usrram
  case sysram => exact toNat_word packable.sysram
  case country => exact holdsText_fieldBytes (by decide) encodable.country
  case ssid => exact holdsText_fieldBytes (by decide) encodable.ssid
  case password => exact holdsText_fieldBytes (by decide) encodable.password
  case enabled | optswitch => rfl
  case file =>
    intro drive
    simp only [contents, Fin.getElem_fin, Vector.getElem_map]
    exact holdsText_fieldBytes (by decide) (encodable.file _ (Vector.getElem_mem drive.isLt))
  case readonly =>
    intro drive
    simp only [contents, Fin.getElem_fin, Vector.getElem_map, diskContents]

end BoardConfig

namespace Config

open BoardConfig

variable {config final : BoardConfig} {state : State} {drive : Fin driveCount}

theorem store_packable {field : Field} {text : Text.CodeText} (packable : config.Packable)
    (stored : store config drive field text = .ok final) : final.Packable := by
  have start : Overrides [] config config := fun field drive => Field.Same.refl drive config field
  exact (start.concat stored).packable packable

/-- No event that is fed takes the numbers out of their fields, whether it is accepted or not. -/
theorem feed_packable (state : State) (event : Yaml.Event) (packable : state.config.Packable) :
    (feed state event).1.config.Packable := by
  rcases fed : feed state event with ⟨next, outcome⟩
  cases outcome with
  | some error =>
    rw [feed_error fed]
    exact packable
  | none =>
    cases feed_eq_ok.mp fed with
    | value kind stored => exact store_packable packable stored
    | _ => exact packable

/-- One run of the reader over settings. What it has stored before an error stays. -/
inductive Run where
  /-- What can be had of a text, up to its first error. -/
  | text (reading : Yaml.Reading)
  /-- Events up to the first that is rejected. -/
  | strict (events : List Yaml.Event)
  /-- Events, and on past those that are rejected. -/
  | lenient (events : List Yaml.Event)

/-- The settings that a run leaves. -/
def Run.over (config : BoardConfig) : Run → BoardConfig
  | .text reading => (read config reading).1.config
  | .strict events => (consume (.initial config) events).1.config
  | .lenient events => (Document.takeAll feed (.initial config) events).config

/-- The settings after several runs, the first of them over those of a board that is new. -/
def settingsAfter (runs : List Run) : BoardConfig :=
  runs.foldl Run.over {}

theorem Run.packable (run : Run) (packable : config.Packable) : (run.over config).Packable := by
  cases run with
  | text reading => exact read_packable packable reading
  | strict events => exact (consume_overrides config events).packable packable
  | lenient events =>
    have start : (State.initial config).config.Packable := packable
    exact Document.takeAll_invariant feed_packable start

theorem packable_settingsAfter (runs : List Run) : (settingsAfter runs).Packable :=
  List.foldlRecOn runs Run.over packable_default fun _ packable run _ => run.packable packable

/-- Settings have a record, whatever runs have left them, just if their texts have a UTF-8 form. It
takes 370 bytes, and says the same as they do. A text without such a form is met with a defect, and
nothing else is. -/
theorem exists_record_says (runs : List Run) :
    ((settingsAfter runs).Encodable ↔ ∃ record contents,
      (settingsAfter runs).pack = .ok record ∧ record.length = 370 ∧
      Contents.ofRecord? record = some contents ∧ contents.Says (settingsAfter runs)) ∧
    ∀ cause, (settingsAfter runs).pack = .error cause ↔
      cause = .unencodable ∧ ¬ (settingsAfter runs).Encodable := by
  have packable := packable_settingsAfter runs
  refine ⟨⟨fun encodable => ?_, ?_⟩, fun cause => ⟨fun failed => ?_, ?_⟩⟩
  · exact ⟨_, _, pack_eq_ok.mpr ⟨encodable, packable, rfl⟩, length_record _, ofRecord?_record _,
      contents_says encodable packable⟩
  · rintro ⟨record, _, packed, _⟩
    exact (pack_eq_ok.mp packed).1
  · obtain rfl := pack_fails packable cause failed
    exact ⟨rfl, (pack_eq_unencodable packable).mp failed⟩
  · rintro ⟨rfl, surrogate⟩
    exact (pack_eq_unencodable packable).mpr surrogate

/-- A name that is a surrogate is accepted, and leaves settings without a record. -/
theorem pack_surrogate :
    let plain (kind : Yaml.EventKind) : Yaml.Event := ⟨kind, none, none⟩
    let scalar (text : Text.CodeText) : Yaml.Event := ⟨.scalar, some text, none⟩
    let events := [plain .streamStart, plain .documentStart, plain .mappingStart, scalar "wifi",
      plain .mappingStart, scalar "ssid", scalar [.surrogate 0], plain .mappingEnd,
      plain .mappingEnd, plain .documentEnd, plain .streamEnd]
    (consume (.initial {}) events).2 = none ∧
      (settingsAfter [.strict events]).pack = .error .unencodable := by
  decide +kernel

end Config

end MemoryBoard
