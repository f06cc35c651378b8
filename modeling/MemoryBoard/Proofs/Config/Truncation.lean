import MemoryBoard.Proofs.Config.Record

set_option autoImplicit false

namespace MemoryBoard

namespace Text

/-- No byte of a character is zero, but for the character zero itself. -/
theorem zero_not_mem_utf8EncodeChar {c : Char} (other : c ≠ '\x00') :
    0 ∉ String.utf8EncodeChar c := by
  have positive : c.val.toNat ≠ 0 := by
    intro zero
    apply other
    apply Char.ext
    exact UInt32.toNat_inj.mp zero
  have nonzero {n : Nat} (positive : n ≠ 0) (small : n < 256) : 0 ≠ UInt8.ofNat n := by
    intro same
    have value := congrArg UInt8.toNat same
    rw [UInt8.toNat_ofNat', UInt8.toNat_zero] at value
    omega
  have continuation (n : Nat) : 0 ≠ UInt8.ofNat (n % 0x40 + 0x80) :=
    nonzero (by omega) (by omega)
  unfold String.utf8EncodeChar
  simp only
  split
  · exact fun member => nonzero positive (by omega) (List.mem_singleton.mp member)
  split
  · simp only [List.mem_cons, List.not_mem_nil, or_false, not_or]
    exact ⟨nonzero (by omega) (by omega), continuation _⟩
  split
  · simp only [List.mem_cons, List.not_mem_nil, or_false, not_or]
    exact ⟨nonzero (by omega) (by omega), continuation _, continuation _⟩
  · simp only [List.mem_cons, List.not_mem_nil, or_false, not_or]
    exact ⟨nonzero (by omega) (by omega), continuation _, continuation _, continuation _⟩

theorem zero_not_mem_encodeUtf8 {text : List Char} (plain : '\x00' ∉ text) :
    0 ∉ encodeUtf8 text := by
  intro member
  obtain ⟨c, inside, zero⟩ := List.mem_flatMap.mp member
  exact zero_not_mem_utf8EncodeChar (fun same => plain (same ▸ inside)) zero

end Text

namespace BoardConfig

/-- A field without its zeros. -/
theorem takeWhile_fieldBytes (width : Nat) {text : String} (plain : '\x00' ∉ text.toList) :
    (fieldBytes width text).takeWhile (· != 0) = text.toUTF8.data.toList.take (width - 1) := by
  have bytes : ∀ byte ∈ text.toUTF8.data.toList.take (width - 1), (byte != 0) = true := by
    intro byte member
    rw [← encodeUtf8_toList] at member
    have other : byte ≠ 0 := fun zero =>
      Text.zero_not_mem_encodeUtf8 plain (zero ▸ List.mem_of_mem_take member)
    simpa using other
  rw [fieldBytes_ofString, Bytes.padded, List.takeWhile_append_of_pos bytes,
    List.takeWhile_replicate]
  simp

end BoardConfig

namespace Config

open BoardConfig Document

/-- The fields that take any text and cut off what is too long. -/
inductive FreeText where
  | ssid
  | password
  | file
deriving DecidableEq, Repr

namespace FreeText

def field : FreeText → Field
  | ssid => .ssid
  | password => .password
  | file => .file

/-- How many bytes such a field takes in the record. -/
def width : FreeText → Nat
  | ssid => 32
  | password => 64
  | file => 64

/-- The text that settings have in the field. -/
def stored (drive : Fin driveCount) (config : BoardConfig) : FreeText → Text.CodeText
  | ssid => config.wifi.ssid
  | password => config.wifi.password
  | file => (config.fdc.disks.get drive).file

/-- The bytes that a record has there. -/
def packed (drive : Fin driveCount) (contents : Contents) : FreeText → Bytes
  | ssid => contents.ssid
  | password => contents.password
  | file => (contents.disks.get drive).file

variable {free : FreeText} {drive : Fin driveCount} {config : BoardConfig} {text : Text.CodeText}

theorem stored_eq_take (reads : free.field.Reads drive text config) :
    free.stored drive config = text.take (free.width - 1) := by
  cases free with
  | ssid => exact reads.2
  | password => exact reads
  | file => exact reads

theorem packed_contents (free : FreeText) (drive : Fin driveCount) (config : BoardConfig) :
    free.packed drive config.contents = fieldBytes free.width (free.stored drive config) := by
  cases free with
  | ssid => rfl
  | password => rfl
  | file =>
    have slot : (config.fdc.disks.map diskContents).get drive =
        diskContents (config.fdc.disks.get drive) :=
      Vector.getElem_map diskContents drive.isLt
    rw [packed, contents, slot]
    rfl

end FreeText

theorem feed_reads {state next : State} {event : Yaml.Event} {field : Field}
    (waits : state.phase = .value field) (accepted : feed state event = (next, none)) :
    field.Reads state.disk event.text next.config := by
  obtain ⟨phase, config, drive⟩ := state
  subst waits
  cases feed_eq_ok.mp accepted with
  | value kind stored => exact (store_reads stored).1

/-- A text of characters that is accepted for such a field is stored without those that leave no
room for a zero. The record has the bytes of it that leave such room, and so all of them just if
they are no more than that. -/
theorem stored_packed (free : FreeText) (config : BoardConfig) (history : List Yaml.Event)
    (event : Yaml.Event) (text : String) (next : State) :
    let state := takeAll feed (.initial config) history
    state.phase = .value free.field → feed state event = (next, none) →
    event.text = text → '\x00' ∉ text.toList →
    (config.Packable → next.config.Encodable → ∃ record, next.config.pack = .ok record) ∧
    ∃ stored : String, free.stored state.disk next.config = stored ∧
      stored.toList = text.toList.take (free.width - 1) ∧
      ∀ record, next.config.pack = .ok record →
        ∃ contents, Contents.ofRecord? record = some contents ∧
          let packed := (free.packed state.disk contents).takeWhile (· != 0)
          packed = stored.toUTF8.data.toList.take (free.width - 1) ∧
          (packed = stored.toUTF8.data.toList ↔ stored.utf8ByteSize ≤ free.width - 1) := by
  intro state waits accepted given plain
  have kept := FreeText.stored_eq_take (feed_reads waits accepted)
  constructor
  · intro packable encodable
    have before : state.config.Packable := takeAll_invariant feed_packable packable
    have after := feed_packable state event before
    rw [accepted] at after
    exact ⟨_, pack_eq_ok.mpr ⟨encodable, after, rfl⟩⟩
  · let stored := String.ofList (text.toList.take (free.width - 1))
    have cut : stored.toList = text.toList.take (free.width - 1) := String.toList_ofList
    have held : free.stored state.disk next.config = stored := by
      rw [kept, given, Text.CodeText.ofString, Text.CodeText.ofString, cut, List.map_take]
    refine ⟨stored, held, cut, fun record packed => ?_⟩
    have same := (pack_eq_ok.mp packed).2.2
    have said : Contents.ofRecord? record = some next.config.contents := by
      rw [same]
      exact ofRecord?_record next.config
    refine ⟨next.config.contents, said, ?_⟩
    have within : '\x00' ∉ stored.toList := by
      rw [cut]
      exact fun member => plain (List.mem_of_mem_take member)
    have bytes := takeWhile_fieldBytes free.width within
    rw [FreeText.packed_contents, held]
    refine ⟨bytes, ?_⟩
    have size : stored.toUTF8.data.toList.length = stored.utf8ByteSize := rfl
    rw [bytes]
    constructor
    · intro whole
      have short := congrArg List.length whole
      rw [List.length_take] at short
      omega
    · intro small
      exact List.take_of_length_le (by omega)

/-- The events up to the value of the network's name. -/
def untilSsid : List Yaml.Event :=
  [⟨.streamStart, none, none⟩, ⟨.documentStart, none, none⟩, ⟨.mappingStart, none, none⟩,
    ⟨.scalar, some "wifi", none⟩, ⟨.mappingStart, none, none⟩, ⟨.scalar, some "ssid", none⟩]

/-- A name of forty-nine characters, of which thirty-one are stored. They take thirty-two bytes, so
that the record lacks the last. -/
theorem stored_packed_long :
    let state := takeAll feed (.initial {}) untilSsid
    let text := String.ofList (List.replicate 28 'a' ++ 'é' :: List.replicate 20 'b')
    let event : Yaml.Event := ⟨.scalar, some text, none⟩
    let next : State := (feed state event).1
    state.phase = .value .ssid ∧ feed state event = (next, none) ∧ event.text = text ∧
      '\x00' ∉ text.toList ∧ next.config.Encodable ∧
      ∃ record contents, next.config.pack = .ok record ∧
        Contents.ofRecord? record = some contents ∧
        next.config.wifi.ssid = String.ofList (List.replicate 28 'a' ++ ['é', 'b', 'b']) ∧
        contents.ssid.takeWhile (· != 0) = List.replicate 28 0x61 ++ [0xc3, 0xa9, 0x62] := by
  intro state text event next
  have waits : state.phase = .value .ssid := by decide +kernel
  have accepted : feed state event = (next, none) := by decide +kernel
  have plain : '\x00' ∉ text.toList := by decide +kernel
  let kept := String.ofList (List.replicate 28 'a' ++ ['é', 'b', 'b'])
  have held : next.config.wifi.ssid = kept := by decide +kernel
  have country : next.config.wifi.country = "" := by decide +kernel
  have password : next.config.wifi.password = "" := by decide +kernel
  have files : ∀ disk ∈ next.config.fdc.disks.toList, disk.file = "" := by decide +kernel
  have encodable : next.config.Encodable :=
    ⟨⟨_, country⟩, ⟨kept, held⟩, ⟨_, password⟩,
      fun disk member => ⟨_, files disk (Vector.mem_toList_iff.mpr member)⟩⟩
  obtain ⟨packs, stored, same, cut, holds⟩ :=
    stored_packed .ssid {} untilSsid event text next waits accepted rfl plain
  obtain ⟨record, packed⟩ := packs packable_default encodable
  obtain ⟨contents, reads, bytes, _⟩ := holds record packed
  have whole : stored = kept := by
    rw [← String.toList_inj, cut]
    decide +kernel
  refine ⟨waits, accepted, rfl, plain, encodable, record, contents, packed, reads, held, ?_⟩
  have front : kept.toUTF8.data.toList.take 31 =
      List.replicate 28 0x61 ++ [0xc3, 0xa9, 0x62] := by decide +kernel
  rw [← front, ← whole]
  exact bytes

/-- A name of thirty-one characters is stored as it is. If the last of them takes two bytes, the
record has but the first of these. -/
theorem packed_splits :
    let name := String.ofList (List.replicate 30 'a' ++ ['é'])
    let fed := feed (takeAll feed (.initial {}) untilSsid) ⟨.scalar, some name, none⟩
    fed.2 = none ∧ fed.1.config.wifi.ssid = name ∧
      ∃ record contents, fed.1.config.pack = .ok record ∧
        Contents.ofRecord? record = some contents ∧
        contents.ssid.takeWhile (· != 0) = List.replicate 30 0x61 ++ [0xc3] ∧
        contents.ssid.takeWhile (· != 0) ≠ name.toUTF8.data.toList := by
  intro name fed
  have stored : fed.1.config.wifi.ssid = name := by decide +kernel
  have packed : fed.1.config.pack = .ok fed.1.config.record := by decide +kernel
  refine ⟨by decide +kernel, stored, _, _, packed, ofRecord?_record fed.1.config, ?_, ?_⟩
  · decide +kernel
  · decide +kernel

end Config

end MemoryBoard
