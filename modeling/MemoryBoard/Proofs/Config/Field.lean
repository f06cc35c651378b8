import MemoryBoard.Config.Reader
import MemoryBoard.Proofs.Scan.Number

set_option autoImplicit false

namespace MemoryBoard.Config

open Text

/-- The keys of the mappings in a document. -/
def sections : List (CodeText × Group) :=
  [("wifi", .wifi), ("video", .video), ("fdc", .fdc)]

/-- The keys of a mapping that have scalars for values. -/
def Group.fields : Group → List (CodeText × Field)
  | wifi => [("country", .country), ("ssid", .ssid), ("password", .password)]
  | video => [("system", .system), ("address", .address)]
  | fdc => [("enabled", .enabled), ("usrram", .usrram), ("sysram", .sysram),
      ("optswitch", .optswitch)]
  | disk => [("file", .file), ("ro", .readonly)]

/-- The key of the mapping for a disk. -/
def driveKey (drive : Fin driveCount) : CodeText :=
  s!"disk{drive.val}"

theorem driveKey_injective {first second : Fin driveCount}
    (same : driveKey first = driveKey second) : first = second := by
  revert first second
  decide

theorem topKey?_eq_some {key : CodeText} {group : Group} :
    key.string?.bind topKey? = some group ↔ (key, group) ∈ sections := by
  rw [CodeText.string?_bind_eq_some]
  constructor
  · rintro ⟨plain, rfl, found⟩
    unfold topKey? at found
    split at found <;> simp_all [sections]
  · intro member
    simp only [sections, List.mem_cons, Prod.mk.injEq, List.not_mem_nil, or_false] at member
    rcases member with ⟨rfl, rfl⟩ | ⟨rfl, rfl⟩ | ⟨rfl, rfl⟩ <;> exact ⟨_, rfl, rfl⟩

theorem key?_eq_field {group : Group} {key : CodeText} {field : Field} :
    key.string?.bind group.key? = some (.field field) ↔ (key, field) ∈ group.fields := by
  rw [CodeText.string?_bind_eq_some]
  constructor
  · rintro ⟨plain, rfl, found⟩
    unfold Group.key? at found
    cases group <;> split at found <;> simp_all [Group.fields]
  · intro member
    cases group <;>
      simp only [Group.fields, List.mem_cons, Prod.mk.injEq, List.not_mem_nil, or_false] at member
    · rcases member with ⟨rfl, rfl⟩ | ⟨rfl, rfl⟩ | ⟨rfl, rfl⟩ <;> exact ⟨_, rfl, rfl⟩
    · rcases member with ⟨rfl, rfl⟩ | ⟨rfl, rfl⟩ <;> exact ⟨_, rfl, rfl⟩
    · rcases member with ⟨rfl, rfl⟩ | ⟨rfl, rfl⟩ | ⟨rfl, rfl⟩ | ⟨rfl, rfl⟩ <;> exact ⟨_, rfl, rfl⟩
    · rcases member with ⟨rfl, rfl⟩ | ⟨rfl, rfl⟩ <;> exact ⟨_, rfl, rfl⟩

theorem key?_eq_disk {group : Group} {key : CodeText} {drive : Fin driveCount} :
    key.string?.bind group.key? = some (.disk drive) ↔ group = .fdc ∧ key = driveKey drive := by
  rw [CodeText.string?_bind_eq_some]
  constructor
  · rintro ⟨plain, rfl, found⟩
    unfold Group.key? at found
    split at found <;> cases found <;> exact ⟨rfl, rfl⟩
  · rintro ⟨rfl, rfl⟩
    refine ⟨s!"disk{drive.val}", rfl, ?_⟩
    match drive with
    | 0 => rfl
    | 1 => rfl
    | 2 => rfl
    | 3 => rfl

theorem group_of_mem {group : Group} {key : CodeText} {field : Field}
    (member : (key, field) ∈ group.fields) : field.group = group := by
  have each : ∀ entry ∈ group.fields, entry.2.group = group := by
    cases group <;> decide
  exact each _ member

/-- Settings with another slot for a disk. -/
def withSlot (config : BoardConfig) (drive : Fin driveCount) (slot : DiskSlot) : BoardConfig :=
  { config with fdc.disks := config.fdc.disks.set drive slot }

theorem slot_withSlot {config : BoardConfig} {drive place : Fin driveCount} {slot : DiskSlot} :
    (withSlot config drive slot).fdc.disks[place] =
      if drive = place then slot else config.fdc.disks[place] := by
  simp only [withSlot, Fin.getElem_fin, Vector.getElem_set, Fin.val_inj]

namespace Field

/-- The text of a key. -/
def name : Field → CodeText
  | country => "country"
  | ssid => "ssid"
  | password => "password"
  | system => "system"
  | address => "address"
  | enabled => "enabled"
  | usrram => "usrram"
  | sysram => "sysram"
  | optswitch => "optswitch"
  | file => "file"
  | readonly => "ro"

/-- The keys that lead to a value, from the outermost mapping on. -/
def path (drive : Fin driveCount) : Field → List CodeText
  | country => ["wifi", "country"]
  | ssid => ["wifi", "ssid"]
  | password => ["wifi", "password"]
  | system => ["video", "system"]
  | address => ["video", "address"]
  | enabled => ["fdc", "enabled"]
  | usrram => ["fdc", "usrram"]
  | sysram => ["fdc", "sysram"]
  | optswitch => ["fdc", "optswitch"]
  | file => ["fdc", driveKey drive, "file"]
  | readonly => ["fdc", driveKey drive, "ro"]

/-- Whether a text says what a flag is. -/
def Says (text : CodeText) (value : Bool) : Prop :=
  text = "true" ∧ value = true ∨ text = "false" ∧ value = false

/-- Whether a text can be the value of a field. -/
def Converts (text : CodeText) : Field → Prop
  | country => ∃ code ∈ Scan.countryCodes, text = CodeText.ofString code
  | ssid => text ≠ []
  | system => text = "ntsc" ∨ text = "pal"
  | address | usrram | sysram => ∃ value, Scan.Denotes 0xffff text value
  | enabled | optswitch | readonly => text = "true" ∨ text = "false"
  | password | file => True

/-- Whether settings have in a field what a text says. Long texts lose their end. -/
def Reads (drive : Fin driveCount) (text : CodeText) (config : BoardConfig) : Field → Prop
  | country => (∃ code ∈ Scan.countryCodes, text = CodeText.ofString code) ∧
      config.wifi.country = text
  | ssid => text ≠ [] ∧ config.wifi.ssid = text.take 31
  | password => config.wifi.password = text.take 63
  | system => text = "ntsc" ∧ config.video.system = 0 ∨ text = "pal" ∧ config.video.system = 1
  | address => ∃ value : Nat, Scan.Denotes 0xffff text value ∧ config.video.address = value
  | enabled => Says text config.fdc.enabled
  | usrram => ∃ value : Nat, Scan.Denotes 0xffff text value ∧ config.fdc.usrram = value
  | sysram => ∃ value : Nat, Scan.Denotes 0xffff text value ∧ config.fdc.sysram = value
  | optswitch => Says text config.fdc.optswitch
  | file => config.fdc.disks[drive].file = text.take 63
  | readonly => Says text config.fdc.disks[drive].readonly

/-- Whether the text for a field is met with a defect. -/
def Stops (text : CodeText) (cause : Defect) : Field → Prop
  | address | usrram | sysram => cause = .tooManyDigits ∧ Scan.HasTooManyDigits text
  | _ => False

/-- Whether settings agree in a field. -/
def Same (drive : Fin driveCount) (first second : BoardConfig) : Field → Prop
  | country => first.wifi.country = second.wifi.country
  | ssid => first.wifi.ssid = second.wifi.ssid
  | password => first.wifi.password = second.wifi.password
  | system => first.video.system = second.video.system
  | address => first.video.address = second.video.address
  | enabled => first.fdc.enabled = second.fdc.enabled
  | usrram => first.fdc.usrram = second.fdc.usrram
  | sysram => first.fdc.sysram = second.fdc.sysram
  | optswitch => first.fdc.optswitch = second.fdc.optswitch
  | file => first.fdc.disks[drive].file = second.fdc.disks[drive].file
  | readonly => first.fdc.disks[drive].readonly = second.fdc.disks[drive].readonly

/-- Settings with a field as others have it. -/
def put (drive : Fin driveCount) (source current : BoardConfig) : Field → BoardConfig
  | country => { current with wifi.country := source.wifi.country }
  | ssid => { current with wifi.ssid := source.wifi.ssid }
  | password => { current with wifi.password := source.wifi.password }
  | system => { current with video.system := source.video.system }
  | address => { current with video.address := source.video.address }
  | enabled => { current with fdc.enabled := source.fdc.enabled }
  | usrram => { current with fdc.usrram := source.fdc.usrram }
  | sysram => { current with fdc.sysram := source.fdc.sysram }
  | optswitch => { current with fdc.optswitch := source.fdc.optswitch }
  | file => withSlot current drive
      { current.fdc.disks[drive] with file := source.fdc.disks[drive].file }
  | readonly => withSlot current drive
      { current.fdc.disks[drive] with readonly := source.fdc.disks[drive].readonly }

theorem Same.refl (drive : Fin driveCount) (config : BoardConfig) (field : Field) :
    field.Same drive config config := by
  cases field <;> rfl

theorem Same.trans {drive : Fin driveCount} {first second third : BoardConfig} {field : Field}
    (one : field.Same drive first second) (other : field.Same drive second third) :
    field.Same drive first third := by
  cases field <;> exact Eq.trans one other

theorem Reads.same {drive : Fin driveCount} {text : CodeText} {first second : BoardConfig}
    {field : Field} (reads : field.Reads drive text first) (same : field.Same drive first second) :
    field.Reads drive text second := by
  cases field <;> simp only [Same] at same <;> simp only [Reads, same] at reads ⊢ <;> exact reads

/-- Nothing but the field with this path is put in. -/
theorem same_put_other {drive place : Fin driveCount} {source current : BoardConfig}
    {field other : Field} (apart : other.path place ≠ field.path drive) :
    other.Same place current (field.put drive source current) := by
  cases field with
  | file =>
    cases other with
    | file =>
      have elsewhere : drive ≠ place := by
        intro same
        rw [same] at apart
        exact apart rfl
      rw [Same, put, slot_withSlot, if_neg elsewhere]
    | readonly =>
      rw [Same, put, slot_withSlot]
      split <;> simp_all
    | _ => rfl
  | readonly =>
    cases other with
    | readonly =>
      have elsewhere : drive ≠ place := by
        intro same
        rw [same] at apart
        exact apart rfl
      rw [Same, put, slot_withSlot, if_neg elsewhere]
    | file =>
      rw [Same, put, slot_withSlot]
      split <;> simp_all
    | _ => rfl
  | _ => cases other <;> first | rfl | exact absurd rfl apart

/-- A path leads to one field, and to one disk. -/
theorem Reads.of_path_eq {drive place : Fin driveCount} {text : CodeText} {config : BoardConfig}
    {field other : Field} (reads : field.Reads drive text config)
    (same : other.path place = field.path drive) : other.Reads place text config := by
  cases field with
  | file =>
    cases other with
    | file =>
      have alike : place = drive := driveKey_injective (by simpa [path] using same)
      rw [alike]
      exact reads
    | _ => simp [path] at same
  | readonly =>
    cases other with
    | readonly =>
      have alike : place = drive := driveKey_injective (by simpa [path] using same)
      rw [alike]
      exact reads
    | _ => simp [path] at same
  | _ =>
    cases other with
    | file | readonly => simp [path] at same
    | _ => first | (simp [path] at same; done) | exact reads

end Field

theorem name_of_mem {group : Group} {key : CodeText} {field : Field}
    (known : (key, field) ∈ group.fields) : key = field.name := by
  have each : ∀ entry ∈ group.fields, entry.1 = entry.2.name := by
    cases group <;> decide
  exact each _ known

variable {config next : BoardConfig} {drive : Fin driveCount} {field : Field} {text : CodeText}

theorem converted_boolean_eq_ok {error : ConfigError} {put : Bool → BoardConfig} :
    Scan.converted Scan.boolean text ConfigError.defect error put = .ok next ↔
      ∃ value, Field.Says text value ∧ next = put value := by
  rw [Scan.converted_pair_eq_ok Scan.boolean_eq_ok]
  constructor
  · rintro (⟨yes, same⟩ | ⟨no, same⟩)
    · exact ⟨true, Or.inl ⟨yes, rfl⟩, same⟩
    · exact ⟨false, Or.inr ⟨no, rfl⟩, same⟩
  · rintro ⟨_, ⟨yes, rfl⟩ | ⟨no, rfl⟩, same⟩
    · exact Or.inl ⟨yes, same⟩
    · exact Or.inr ⟨no, same⟩

/-- Storing a text puts in what it says, and nothing else. -/
theorem store_reads (stored : store config drive field text = .ok next) :
    field.Reads drive text next ∧ next = field.put drive next config := by
  obtain ⟨wifi, video, fdc⟩ := config
  cases field with
  | country =>
    obtain ⟨plain, value, rfl, scanned, rfl⟩ := Scan.converted_eq_ok.mp stored
    obtain ⟨member, rfl⟩ := Scan.countryCode_eq_ok.mp scanned
    exact ⟨⟨⟨value, member, rfl⟩, rfl⟩, rfl⟩
  | ssid =>
    simp only [store] at stored
    split at stored
    · cases stored
    · rename_i given
      cases stored
      exact ⟨⟨given, rfl⟩, rfl⟩
  | password =>
    cases stored
    exact ⟨rfl, rfl⟩
  | system =>
    rcases (Scan.converted_pair_eq_ok Scan.videoSystem_eq_ok).mp stored with
      ⟨ntsc, rfl⟩ | ⟨pal, rfl⟩
    · exact ⟨Or.inl ⟨ntsc, rfl⟩, rfl⟩
    · exact ⟨Or.inr ⟨pal, rfl⟩, rfl⟩
  | address | usrram | sysram =>
    obtain ⟨value, denotes, rfl⟩ := (Scan.converted_unsigned_eq_ok (by decide)).mp stored
    exact ⟨⟨value, denotes, rfl⟩, rfl⟩
  | enabled | optswitch =>
    obtain ⟨value, told, rfl⟩ := converted_boolean_eq_ok.mp stored
    exact ⟨told, rfl⟩
  | file =>
    have given : withSlot ⟨wifi, video, fdc⟩ drive
        { fdc.disks[drive] with file := cut BoardConfig.fileWidth text } = next :=
      Except.ok.inj stored
    subst given
    refine ⟨?_, ?_⟩
    · rw [Field.Reads, slot_withSlot, if_pos rfl]
      rfl
    · rw [Field.put, slot_withSlot, if_pos rfl]
  | readonly =>
    obtain ⟨value, told, put⟩ := converted_boolean_eq_ok.mp stored
    have given : next = withSlot ⟨wifi, video, fdc⟩ drive
        { fdc.disks[drive] with readonly := value } := put
    subst given
    refine ⟨?_, ?_⟩
    · rw [Field.Reads, slot_withSlot, if_pos rfl]
      exact told
    · rw [Field.put, slot_withSlot, if_pos rfl]

theorem Field.Reads.converts (reads : field.Reads drive text config) : field.Converts text := by
  have said {value : Bool} (told : Field.Says text value) : text = "true" ∨ text = "false" := by
    rcases told with ⟨yes, _⟩ | ⟨no, _⟩
    · exact Or.inl yes
    · exact Or.inr no
  cases field with
  | country => exact reads.1
  | ssid => exact reads.1
  | password => trivial
  | system =>
    rcases reads with ⟨ntsc, _⟩ | ⟨pal, _⟩
    · exact Or.inl ntsc
    · exact Or.inr pal
  | address | usrram | sysram =>
    obtain ⟨value, denotes, _⟩ := reads
    exact ⟨value, denotes⟩
  | enabled | optswitch | readonly => exact said reads
  | file => trivial

/-- Which texts can be stored depends on the field only. -/
theorem exists_store_eq_ok :
    (∃ next, store config drive field text = .ok next) ↔ field.Converts text := by
  constructor
  · intro ⟨next, stored⟩
    exact (store_reads stored).1.converts
  · intro converts
    have flag (converts : text = "true" ∨ text = "false") :
        ∃ value, Field.Says text value := by
      rcases converts with yes | no
      · exact ⟨true, Or.inl ⟨yes, rfl⟩⟩
      · exact ⟨false, Or.inr ⟨no, rfl⟩⟩
    obtain ⟨wifi, video, fdc⟩ := config
    cases field with
    | country =>
      obtain ⟨code, member, same⟩ := converts
      have scanned := Scan.countryCode_eq_ok.mpr ⟨member, rfl⟩
      exact ⟨_, Scan.converted_eq_ok.mpr ⟨code, code, same, scanned, rfl⟩⟩
    | ssid => exact ⟨_, if_neg converts⟩
    | password => exact ⟨_, rfl⟩
    | system =>
      rcases converts with ntsc | pal
      · exact ⟨_, (Scan.converted_pair_eq_ok Scan.videoSystem_eq_ok).mpr (Or.inl ⟨ntsc, rfl⟩)⟩
      · exact ⟨_, (Scan.converted_pair_eq_ok Scan.videoSystem_eq_ok).mpr (Or.inr ⟨pal, rfl⟩)⟩
    | address | usrram | sysram =>
      obtain ⟨value, denotes⟩ := converts
      exact ⟨_, (Scan.converted_unsigned_eq_ok (by decide)).mpr ⟨value, denotes, rfl⟩⟩
    | enabled | optswitch | readonly =>
      obtain ⟨value, told⟩ := flag converts
      exact ⟨_, converted_boolean_eq_ok.mpr ⟨value, told, rfl⟩⟩
    | file => exact ⟨_, rfl⟩

/-- A number with more digits than can be converted is all that a value can be met with a defect
for. -/
theorem store_eq_defect {cause : Defect} :
    store config drive field text = .error (.defect cause) ↔ field.Stops text cause := by
  have injective : Function.Injective ConfigError.defect := fun _ _ => ConfigError.defect.inj
  have other : ∀ cause, ConfigError.badValue field text ≠ .defect cause := nofun
  have number {put : Nat → BoardConfig} := @Scan.converted_unsigned_eq_defect _ _ 0xffff text
    ConfigError.defect _ put cause injective other
  have none {α : Type} {scan : String → Except ScanError α} {put : α → BoardConfig}
      (own : ∀ plain, scan plain ≠ .error (.defect cause)) :
      Scan.converted scan text ConfigError.defect (.badValue field text) put =
        .error (.defect cause) ↔ False :=
    iff_of_false (Scan.converted_ne_defect injective other own) not_false
  cases field with
  | address | usrram | sysram => exact number
  | country => exact none fun _ => Scan.map_choice_ne_defect
  | system => exact none fun _ => Scan.choice_ne_defect
  | enabled | optswitch | readonly => exact none fun _ => Scan.boolean_ne_defect
  | ssid =>
    simp only [store, Field.Stops, iff_false]
    split <;> nofun
  | password | file =>
    simp only [Field.Stops, iff_false]
    nofun

end MemoryBoard.Config
