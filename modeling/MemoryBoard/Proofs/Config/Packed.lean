import MemoryBoard.Proofs.Chunks
import MemoryBoard.Proofs.Config.Assignments
import MemoryBoard.Proofs.Except

set_option autoImplicit false

namespace MemoryBoard

namespace BoardConfig

open Text

/-- Whether a number fits its field. -/
def IsWord (number : Int) : Prop :=
  0 ≤ number ∧ number ≤ 0xffff

/-- Settings whose numbers all fit their fields. -/
structure Packable (config : BoardConfig) : Prop where
  system : IsWord config.video.system
  address : IsWord config.video.address
  usrram : IsWord config.fdc.usrram
  sysram : IsWord config.fdc.sysram

/-- Settings whose texts all have a UTF-8 form. -/
structure Encodable (config : BoardConfig) : Prop where
  country : config.wifi.country.IsPlain
  ssid : config.wifi.ssid.IsPlain
  password : config.wifi.password.IsPlain
  file : ∀ disk ∈ config.fdc.disks, disk.file.IsPlain

/-- The field of a text that has a UTF-8 form. -/
def fieldBytes (width : Nat) (text : CodeText) : Bytes :=
  Bytes.padded width ((text.utf8?.getD []).take (width - 1))

def diskBytes (disk : DiskSlot) : Bytes :=
  fieldBytes fileWidth disk.file ++ flag disk.readonly

/-- The record of settings whose numbers fit and whose texts have a UTF-8 form. -/
def record (config : BoardConfig) : Bytes :=
  fieldBytes countryWidth config.wifi.country ++ fieldBytes ssidWidth config.wifi.ssid ++
    fieldBytes passwordWidth config.wifi.password ++
    Bytes.littleEndian 2 config.video.system.toNat ++
    Bytes.littleEndian 2 config.video.address.toNat ++
    flag config.fdc.enabled ++ flag config.fdc.optswitch ++
    Bytes.littleEndian 2 config.fdc.usrram.toNat ++
    Bytes.littleEndian 2 config.fdc.sysram.toNat ++
    config.fdc.disks.toList.flatMap diskBytes

variable {config : BoardConfig} {width : Nat} {text : CodeText} {disk : DiskSlot}

theorem textField_eq_ok {field : Bytes} :
    textField width text = .ok field ↔ text.IsPlain ∧ field = fieldBytes width text := by
  unfold textField fieldBytes
  cases form : text.utf8? with
  | none =>
    have surrogate := CodeText.utf8?_eq_none.mp form
    simp [surrogate]
  | some bytes =>
    obtain ⟨plain, same, _⟩ := CodeText.utf8?_eq_some.mp form
    have isPlain : text.IsPlain := ⟨plain, same⟩
    simp [isPlain, eq_comm]

theorem diskRecord_eq_ok {field : Bytes} :
    diskRecord disk = .ok field ↔ disk.file.IsPlain ∧ field = diskBytes disk := by
  simp only [diskRecord, bind_eq_ok, textField_eq_ok]
  constructor
  · rintro ⟨_, ⟨plain, rfl⟩, same⟩
    exact ⟨plain, (Except.ok.inj same).symm⟩
  · rintro ⟨plain, rfl⟩
    exact ⟨_, ⟨plain, rfl⟩, rfl⟩

theorem word_eq_ok {number : Int} {bytes : Bytes} :
    word number = .ok bytes ↔ IsWord number ∧ bytes = Bytes.littleEndian 2 number.toNat := by
  have limit : Bytes.limit 2 = 0x10000 := rfl
  have packed := @Bytes.packed?_eq_some 2 number bytes
  rw [limit] at packed
  unfold word IsWord
  constructor
  · intro whole
    split at whole
    · cases whole
    · rename_i found
      cases whole
      obtain ⟨positive, small, same⟩ := packed.mp found
      exact ⟨⟨positive, by omega⟩, same⟩
  · rintro ⟨⟨positive, bound⟩, same⟩
    rw [packed.mpr ⟨positive, by omega, same⟩]

theorem mapM_diskRecord_eq_ok {disks : List DiskSlot} {fields : List Bytes} :
    disks.mapM diskRecord = .ok fields ↔
      (∀ disk ∈ disks, disk.file.IsPlain) ∧ fields = disks.map diskBytes := by
  rw [mapM_eq_mapM_id, mapM_id_eq_ok]
  induction disks generalizing fields with
  | nil => cases fields <;> simp
  | cons disk rest ih =>
    cases fields with
    | nil => simp
    | cons field later =>
      simp only [List.map_cons, List.cons.injEq, diskRecord_eq_ok, ih, List.forall_mem_cons]
      constructor
      · rintro ⟨⟨first, same⟩, others, alike⟩
        exact ⟨⟨first, others⟩, same, alike⟩
      · rintro ⟨⟨first, others⟩, same, alike⟩
        exact ⟨⟨first, same⟩, others, alike⟩

/-- Settings have a record if their texts have a UTF-8 form and their numbers fit. -/
theorem pack_eq_ok {bytes : Bytes} : config.pack = .ok bytes ↔
    config.Encodable ∧ config.Packable ∧ bytes = config.record := by
  simp only [pack, bind_eq_ok, textField_eq_ok, word_eq_ok, mapM_diskRecord_eq_ok,
    Vector.mem_toList_iff]
  constructor
  · rintro ⟨_, ⟨country, rfl⟩, _, ⟨ssid, rfl⟩, _, ⟨password, rfl⟩, _, ⟨system, rfl⟩, _,
      ⟨address, rfl⟩, _, ⟨usrram, rfl⟩, _, ⟨sysram, rfl⟩, _, ⟨file, rfl⟩, same⟩
    refine ⟨⟨country, ssid, password, file⟩, ⟨system, address, usrram, sysram⟩, ?_⟩
    rw [record, List.flatMap_def]
    exact (Except.ok.inj same).symm
  · rintro ⟨⟨country, ssid, password, file⟩, ⟨system, address, usrram, sysram⟩, rfl⟩
    refine ⟨_, ⟨country, rfl⟩, _, ⟨ssid, rfl⟩, _, ⟨password, rfl⟩, _, ⟨system, rfl⟩, _,
      ⟨address, rfl⟩, _, ⟨usrram, rfl⟩, _, ⟨sysram, rfl⟩, _, ⟨file, rfl⟩, ?_⟩
    rw [record, List.flatMap_def]
    rfl

theorem textField_fails : FailsWith (· = .unencodable) (textField width text) := by
  unfold textField
  split
  · exact .error rfl
  · exact .ok _

theorem word_fails {number : Int} (fits : IsWord number) :
    FailsWith (· = .unencodable) (word number) := by
  rw [word_eq_ok.mpr ⟨fits, rfl⟩]
  exact .ok _

theorem mapM_diskRecord_fails (disks : List DiskSlot) :
    FailsWith (· = .unencodable) (disks.mapM diskRecord) := by
  induction disks with
  | nil => exact .ok []
  | cons disk rest ih =>
    rw [List.mapM_cons]
    refine .bind (.bind textField_fails fun _ => .ok _) fun _ => ?_
    exact .bind ih fun _ => .ok _

/-- Where the numbers fit it is a text that keeps settings from having a record. -/
theorem pack_fails (packable : config.Packable) : FailsWith (· = .unencodable) config.pack := by
  unfold pack
  refine .bind textField_fails fun _ => .bind textField_fails fun _ => .bind textField_fails
    fun _ => ?_
  refine .bind (word_fails packable.system) fun _ => .bind (word_fails packable.address)
    fun _ => .bind (word_fails packable.usrram) fun _ => .bind (word_fails packable.sysram)
    fun _ => ?_
  exact .bind (mapM_diskRecord_fails _) fun _ => .ok _

theorem pack_eq_unencodable (packable : config.Packable) :
    config.pack = .error .unencodable ↔ ¬ config.Encodable := by
  cases packed : config.pack with
  | ok bytes => simp [(pack_eq_ok.mp packed).1]
  | error cause =>
    rw [pack_fails packable cause packed]
    simp only [true_iff]
    intro encodable
    rw [pack_eq_ok.mpr ⟨encodable, packable, rfl⟩] at packed
    cases packed

theorem length_fieldBytes (positive : 0 < width) (text : CodeText) :
    (fieldBytes width text).length = width := by
  rw [fieldBytes, Bytes.length_padded, List.length_take]
  omega

theorem length_diskBytes (disk : DiskSlot) : (diskBytes disk).length = 65 := by
  rw [diskBytes, List.length_append, length_fieldBytes (by decide)]
  rfl

theorem length_record (config : BoardConfig) : config.record.length = 370 := by
  have disks : (config.fdc.disks.toList.flatMap diskBytes).length = 65 * driveCount := by
    rw [length_flatMap_of_length fun disk _ => length_diskBytes disk, Vector.length_toList]
  simp only [record, List.length_append, Bytes.length_littleEndian, disks, flag,
    List.length_singleton, length_fieldBytes (show 0 < countryWidth by decide),
    length_fieldBytes (show 0 < ssidWidth by decide),
    length_fieldBytes (show 0 < passwordWidth by decide)]
  rfl

end BoardConfig

namespace Config

open BoardConfig

variable {assigned : List (List Text.CodeText × Text.CodeText)} {old new : BoardConfig}

/-- A field that was not left as it was has what some text says. -/
theorem Overrides.same_or_reads (overrides : Overrides assigned old new) (field : Field)
    (drive : Fin driveCount) :
    field.Same drive old new ∨ ∃ text, field.Reads drive text new := by
  have either := overrides field drive
  split at either
  · exact Or.inl either
  · exact Or.inr ⟨_, either⟩

theorem isWord_of_denotes {text : Text.CodeText} {number : Int}
    (denoted : ∃ value : Nat, Scan.Denotes 0xffff text value ∧ number = value) :
    IsWord number := by
  obtain ⟨value, ⟨_, _, _, _, _, _, bound⟩, same⟩ := denoted
  unfold IsWord
  omega

theorem Overrides.packable (overrides : Overrides assigned old new) (packable : old.Packable) :
    new.Packable := by
  constructor
  · rcases overrides.same_or_reads .system 0 with same | ⟨text, ⟨_, ntsc⟩ | ⟨_, pal⟩⟩
    · exact same ▸ packable.system
    · rw [ntsc]
      exact ⟨by decide, by decide⟩
    · rw [pal]
      exact ⟨by decide, by decide⟩
  · rcases overrides.same_or_reads .address 0 with same | ⟨text, reads⟩
    · exact same ▸ packable.address
    · exact isWord_of_denotes reads
  · rcases overrides.same_or_reads .usrram 0 with same | ⟨text, reads⟩
    · exact same ▸ packable.usrram
    · exact isWord_of_denotes reads
  · rcases overrides.same_or_reads .sysram 0 with same | ⟨text, reads⟩
    · exact same ▸ packable.sysram
    · exact isWord_of_denotes reads

theorem packable_default : ({} : BoardConfig).Packable := by
  refine ⟨?_, ?_, ?_, ?_⟩ <;> exact ⟨by decide, by decide⟩

/-- Reading keeps numbers in their fields, whether it succeeds or not. -/
theorem read_packable {config : BoardConfig} (packable : config.Packable)
    (reading : Yaml.Reading) : (read config reading).1.config.Packable := by
  have same : (read config reading).1 = (consume (.initial config) reading.events).1 :=
    (Document.consume_ending _ _ _ _).1
  rw [same]
  exact (consume_overrides config reading.events).packable packable

end Config

end MemoryBoard
