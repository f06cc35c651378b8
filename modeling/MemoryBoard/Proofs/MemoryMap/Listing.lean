import MemoryBoard.Proofs.Memory.Sections
import MemoryBoard.Proofs.MemoryMap.Acceptance
import MemoryBoard.Proofs.MemoryMap.Layout
import MemoryBoard.Proofs.Yaml.Documents

set_option autoImplicit false

namespace MemoryBoard

namespace Section

/-- The keys and values of the document that describes a section, as they are printed. -/
def entries (run : Section) : List (String × String) := [
  ("start", "0x" ++ Text.hexNumber 4 run.start),
  ("end", "0x" ++ Text.hexNumber 4 run.last),
  ("enabled", if run.access.enabled then "true" else "false"),
  ("type", if run.access.readonly then "rom" else "ram")]

/-- The entries as they are read. -/
def told (run : Section) : List MemoryMap.Entry :=
  run.entries.map fun (key, text) => (↑key, ↑text)

theorem toList_document (run : Section) : run.document.toList = Yaml.documentText run.entries := by
  unfold document entries Yaml.documentText Yaml.entryText
  simp [toString]

theorem toList_documents (runs : List Section) :
    (documents runs).toList = (runs.map entries).flatMap Yaml.documentText := by
  rw [documents, String.toList_join, List.flatMap_map, List.flatMap_map]
  simp only [toList_document]

/-- The segment that the document of a section describes. -/
def segment (run : Section) : Segment where
  start := some run.start
  last := some run.last
  enabled := some run.access.enabled
  readonly := some run.access.readonly
  count := run.count

/-- Whether a section lies in the address space, with one address at least. -/
def Lies (run : Section) : Prop :=
  0 ≤ run.start ∧ run.start ≤ run.last ∧ run.last ≤ 0xffff

theorem isWord_address {address : Int} (positive : 0 ≤ address) :
    Yaml.IsWord ("0x" ++ Text.hexNumber 4 address).toList := by
  have letters : ∀ code < 0x80, Text.isHexDigit (Char.ofNat code) = true →
      Yaml.isLetter (Char.ofNat code) = true := by decide
  have digits : ∀ c ∈ (Text.hexNumber 4 address).toList, Yaml.isLetter c = true := by
    rw [← Int.toNat_of_nonneg positive, Text.hexNumber_natCast, String.toList_ofList]
    intro c member
    exact Scan.hexDigit_all (fun c => Yaml.isLetter c = true) letters
      (Text.isHexDigit_of_mem_hexField member)
  constructor
  · simp
  · rw [String.toList_append, List.forall_mem_append]
    refine ⟨?_, digits⟩
    simp [Yaml.isLetter, Yaml.Scanner.isIndicator]

theorem isEntry_of_lies {run : Section} (lies : run.Lies) :
    ∀ entry ∈ run.entries, Yaml.IsEntry entry := by
  obtain ⟨positive, order, _⟩ := lies
  have words : ∀ word ∈ ["start", "end", "enabled", "type", "true", "false", "rom", "ram"],
      Yaml.IsWord word.toList ∧ word.toList.length ≤ 1024 := by
    simp only [List.forall_mem_cons]
    simp [Yaml.isWord_iff, Yaml.isLetter, Yaml.Scanner.isIndicator]
  simp only [List.forall_mem_cons] at words
  obtain ⟨start, last, enabled, type, yes, no, rom, ram, _⟩ := words
  simp only [entries, List.forall_mem_cons]
  refine ⟨⟨start.1, start.2, isWord_address positive⟩,
    ⟨last.1, last.2, isWord_address (Int.le_trans positive order)⟩,
    ⟨enabled.1, enabled.2, ?_⟩, ⟨type.1, type.2, ?_⟩, List.forall_mem_nil _⟩
  · cases run.access.enabled
    · exact no.1
    · exact yes.1
  · cases run.access.readonly
    · exact ram.1
    · exact rom.1

theorem isOrdinary_documents {runs : List Section} (lies : ∀ run ∈ runs, run.Lies) :
    ∀ c ∈ (documents runs).toList, Yaml.IsOrdinary c := by
  rw [toList_documents]
  apply Yaml.isOrdinary_documents
  rw [List.forall_mem_map]
  exact fun run member => isEntry_of_lies (lies run member)

end Section

namespace MemoryMap

open Yaml

/-- The events of a listing: one document for each section, with one mapping of its entries. -/
inductive Listed : List Section → List Event → Prop where
  | nil : Listed [] []
  | cons {run : Section} {runs : List Section} {opening first last closing : Event}
      {inner events : List Event} :
      opening.kind = .documentStart → first.kind = .mappingStart → Entries inner run.told →
      last.kind = .mappingEnd → closing.kind = .documentEnd → Listed runs events →
      Listed (run :: runs) (opening :: first :: (inner ++ last :: closing :: events))

/-- A stream of documents for some sections. -/
def Lists (runs : List Section) (events : List Event) : Prop :=
  ∃ opening inner closing, events = opening :: (inner ++ [closing]) ∧
    opening.kind = .streamStart ∧ Listed runs inner ∧ closing.kind = .streamEnd

variable {setting : Setting} {run : Section} {runs : List Section} {events : List Event}

theorem entries_entriesEvents (line : Nat) (entries : List (String × String)) :
    Entries (Parser.entriesEvents line entries) (entries.map fun (key, text) => (↑key, ↑text)) := by
  induction entries generalizing line with
  | nil => exact .nil
  | cons entry entries ih =>
    exact @Entries.cons (Parser.scalar entry.1 line) (Parser.scalar entry.2 line) _ _ rfl rfl
      (ih (line + 1))

/-- The events of the documents for sections are those of a listing. -/
theorem exists_streamEvents_eq (line : Nat) (runs : List Section) : ∃ inner closing,
    Parser.streamEvents line (runs.map Section.entries) = inner ++ [closing] ∧
      Listed runs inner ∧ closing.kind = .streamEnd := by
  induction runs generalizing line with
  | nil => exact ⟨[], _, rfl, .nil, rfl⟩
  | cons run runs ih =>
    let last := line + 1 + run.entries.length
    obtain ⟨inner, closing, same, listed, ends⟩ := ih last
    have document := @Listed.cons run runs (Parser.event .documentStart line)
      (Parser.event .mappingStart (line + 1)) (Parser.event .mappingEnd last)
      (Parser.event .documentEnd last) _ inner rfl rfl
      (entries_entriesEvents (line + 1) run.entries) rfl rfl listed
    refine ⟨_, closing, ?_, document, ends⟩
    rw [List.map_cons, Parser.streamEvents, same]
    simp only [List.cons_append, List.append_assoc, last]

/-- A listing is parsed as the documents that it is made of. -/
theorem exists_lists (lies : ∀ run ∈ runs, run.Lies) : ∃ events,
    textEvents (Section.documents runs) = ⟨events, none⟩ ∧ Lists runs events := by
  have nonempty : ∀ entries ∈ runs.map Section.entries, entries ≠ [] := by
    rw [List.forall_mem_map]
    nofun
  have valid : ∀ entries ∈ runs.map Section.entries, ∀ entry ∈ entries, IsEntry entry := by
    rw [List.forall_mem_map]
    exact fun run member => Section.isEntry_of_lies (lies run member)
  obtain ⟨inner, closing, same, listed, ends⟩ := exists_streamEvents_eq 0 runs
  refine ⟨Parser.event .streamStart 0 :: (inner ++ [closing]), ?_, _, inner, closing, rfl, rfl,
    listed, ends⟩
  rw [← same, textEvents, Source.ofText_ordinary (Section.isOrdinary_documents lies),
    Section.toList_documents]
  exact Source.read_documents nonempty valid

/-- A file with a listing is parsed alike. -/
theorem fileEvents_documents (lies : ∀ run ∈ runs, run.Lies) :
    fileEvents (Text.encodeUtf8 (Section.documents runs).toList) =
      textEvents (Section.documents runs) :=
  congrArg Source.read (Source.ofFile_ordinary (Section.isOrdinary_documents lies))

/-- An address that was printed is read as itself. -/
theorem denotes_address {address : Int} (positive : 0 ≤ address) (bound : address ≤ 0xffff) :
    Scan.Denotes 0xffff (Text.CodeText.ofString ("0x" ++ Text.hexNumber 4 address))
      address.toNat := by
  have spelled : "0x" ++ Text.hexNumber 4 address =
      String.ofList ('0' :: 'x' :: Text.hexField 4 address.toNat) := by
    rw [← Int.toNat_of_nonneg positive, Text.hexNumber_natCast, Int.toNat_natCast,
      ← String.toList_inj]
    simp
  rw [spelled]
  exact Scan.denotes_hexField 4 (by omega)

/-- What the entries for a section say. -/
theorem fills_told (lies : run.Lies) : Fills setting run.told run.segment := by
  obtain ⟨positive, order, bound⟩ := lies
  constructor
  · simp only [Section.told, Section.entries, List.map_cons, List.map_nil]
    decide
  · simp only [Section.told, Section.entries, List.map_cons, List.map_nil, List.forall_mem_cons]
    exact ⟨⟨.start, rfl⟩, ⟨.last, rfl⟩, ⟨.enabled, rfl⟩, ⟨.type, rfl⟩, nofun⟩
  · intro field text member
    simp only [Section.told, Section.entries, List.map_cons, List.map_nil, List.mem_cons,
      Prod.mk.injEq, List.not_mem_nil, or_false] at member
    rcases member with ⟨named, rfl⟩ | ⟨named, rfl⟩ | ⟨named, rfl⟩ | ⟨named, rfl⟩
    · rw [Field.key_injective (show field.key = Field.start.key from named)]
      exact ⟨run.start.toNat, denotes_address positive (by omega),
        congrArg some (Int.toNat_of_nonneg positive).symm⟩
    · rw [Field.key_injective (show field.key = Field.last.key from named)]
      exact ⟨run.last.toNat, denotes_address (by omega) bound,
        congrArg some (Int.toNat_of_nonneg (by omega)).symm⟩
    · rw [Field.key_injective (show field.key = Field.enabled.key from named)]
      cases enabled : run.access.enabled with
      | true => exact Or.inl ⟨rfl, congrArg some enabled⟩
      | false => exact Or.inr ⟨rfl, congrArg some enabled⟩
    · rw [Field.key_injective (show field.key = Field.type.key from named)]
      cases readonly : run.access.readonly with
      | true => exact Or.inr ⟨rfl, congrArg some readonly⟩
      | false => exact Or.inl ⟨rfl, congrArg some readonly⟩
  · intro field absent
    cases field with
    | start => exact absurd List.mem_cons_self (absent _)
    | last => exact absurd (List.mem_cons_of_mem _ List.mem_cons_self) (absent _)
    | enabled => exact absurd (List.mem_of_getElem? (i := 2) rfl) (absent _)
    | type => exact absurd (List.mem_of_getElem? (i := 3) rfl) (absent _)
    | fill => rfl
    | data => rfl
    | file => exact ⟨rfl, rfl⟩

/-- The segment of a section could end its document. -/
theorem complete_segment (lies : run.Lies) : Complete setting run.segment run.start := by
  obtain ⟨positive, order, bound⟩ := lies
  have last : ∀ last, run.segment.last = some last → last = run.last := by
    intro last given
    exact (Option.some.inj given).symm
  have count : run.segment.count = run.last - run.start + 1 := rfl
  refine ⟨rfl, ?_, Or.inl rfl, nofun, fun _ => rfl, ?_, ?_, by omega, ?_⟩
  · intro other given
    rw [last other given]
    exact order
  · exact Or.inr (Or.inr (Or.inr (Or.inl rfl)))
  · exact Or.inr (Or.inr ⟨rfl, rfl, run.last, rfl, rfl⟩)
  · intro other given
    rw [last other given]
    omega

theorem Listed.documents (listed : Listed runs events) (lies : ∀ run ∈ runs, run.Lies) :
    Documents setting events (runs.map Section.segment) := by
  induction listed with
  | nil => exact .nil
  | @cons run runs opening first last closing inner events begins enters entries leaves ends _ ih =>
    obtain ⟨here, later⟩ := List.forall_mem_cons.mp lies
    have mapping : Mappings (first :: (inner ++ [last])) run.told := by
      have alone := Mappings.cons enters entries leaves .nil
      rwa [List.append_nil] at alone
    have document := Documents.cons begins mapping ends
      ⟨fills_told here, run.start, complete_segment here⟩ (ih later)
    simpa using document

/-- A listing is read as one segment for each section. -/
theorem consume_lists (lists : Lists runs events) (lies : ∀ run ∈ runs, run.Lies) :
    ∃ final, consume setting .initial events = (final, none) ∧
      final.segments.toList = runs.map Section.segment := by
  obtain ⟨opening, inner, closing, same, begins, listed, ends⟩ := lists
  refine (consume_iff_continues Phase.noConfusion Tidy.empty).mpr ?_
  exact ⟨runs.map Section.segment, rfl, opening, inner, closing, [], same, begins,
    listed.documents lies, ends⟩

theorem read_lists {reading : Reading} (lists : Lists runs reading.events)
    (lies : ∀ run ∈ runs, run.Lies) : ∃ final, read setting reading = (final, none) ∧
      final.segments.toList = runs.map Section.segment := by
  obtain ⟨final, accepted, segments⟩ := consume_lists lists lies
  obtain ⟨states, success⟩ := Document.consume_ending _ _ State.initial reading.events
  exact ⟨final, Prod.ext (states.trans (congrArg Prod.fst accepted))
    (success.mpr (congrArg Prod.snd accepted)), segments⟩

end MemoryMap

section

variable {accessAt : Nat → Access} {first stop : Nat} {runs : List Section}

theorem Tiles.lies (tiles : Tiles accessAt first runs stop) (bound : stop ≤ 0x10000) :
    ∀ run ∈ runs, run.Lies := by
  induction tiles with
  | nil => nofun
  | cons start last some _ tiles ih =>
    have order := tiles.le
    refine List.forall_mem_cons.mpr ⟨⟨?_, ?_, ?_⟩, ih bound⟩
    · omega
    · omega
    · omega

/-- Of segments for sections just one lies over an address, with the access there. -/
theorem Tiles.latest (tiles : Tiles accessAt first runs stop) (index address : Nat) :
    latest? (Layout.accessAt? address) ((runs.map Section.segment).zipIdx index) =
      if first ≤ address ∧ address < stop then some (accessAt address) else none := by
  induction tiles generalizing index with
  | nil =>
    rw [if_neg (by omega)]
    rfl
  | @cons first next stop run runs start last nonempty same tiles ih =>
    have order := tiles.le
    have here : Layout.accessAt? address (run.segment, index) =
        if first ≤ address ∧ address < next then some run.access else none := by
      have inside : run.start ≤ (address : Int) ∧ (address : Int) < run.start + run.count ↔
          first ≤ address ∧ address < next := by
        unfold Section.count
        omega
      simp only [Layout.accessAt?, Section.segment, Option.bind_eq_bind, Option.bind_some, inside,
        Option.getD_some]
    rw [List.map_cons, List.zipIdx_cons, latest?_cons, ih, here]
    by_cases before : address < next
    · by_cases above : first ≤ address
      · rw [if_neg (by omega), if_pos ⟨above, before⟩, if_pos (by omega), Option.none_or,
          same address above before]
      · rw [if_neg (by omega), if_neg (by omega), if_neg (by omega), Option.none_or]
    · rw [if_neg (c := first ≤ address ∧ address < next) (by omega), Option.or_none]
      by_cases inside : address < stop
      · rw [if_pos (by omega), if_pos (by omega)]
      · rw [if_neg (by omega), if_neg (by omega)]

end

theorem Access.byte_ofByte {byte : UInt8} (defined : byte < 4) : (ofByte byte).byte = byte := by
  have small : byte.toNat < 4 := UInt8.lt_iff_toNat_lt.mp defined
  have each : ∀ value < 4, (ofByte (UInt8.ofNat value)).byte = UInt8.ofNat value := by decide
  have here := each byte.toNat small
  rwa [UInt8.ofNat_toNat] at here

theorem Access.byte_lt (access : Access) : access.byte < 4 := by
  rcases access with ⟨_ | _, _ | _⟩ <;> decide

namespace Layout

/-- What is built has no attribute bits but the defined ones. -/
theorem build_defined {setting : Setting} {segments : List Segment} {image : Image}
    (built : build setting segments = .ok image) {address : Nat} (inside : address < addressCount) :
    image.attributeAt address < 4 := by
  rw [(build_at address built inside).2]
  exact Access.byte_lt _

/-- The sections of an image can be built, with its attributes. -/
theorem build_sections (setting : Setting) {image : Image}
    (defined : ∀ address < addressCount, image.attributeAt address < 4) :
    ∃ rebuilt, build setting (image.sections.map Section.segment) = .ok rebuilt ∧
      ∀ address < addressCount, rebuilt.attributeAt address = image.attributeAt address := by
  have tiles := image.sections_tile
  have placeable : ∀ segment ∈ image.sections.map Section.segment,
      ∃ first, Placeable setting segment first := by
    rw [List.forall_mem_map]
    intro run member
    obtain ⟨positive, order, bound⟩ := tiles.lies (Nat.le_refl _) run member
    refine ⟨run.start, rfl, nofun, nofun, nofun, positive, ?_, ?_⟩
    · change 0 ≤ run.last - run.start + 1
      omega
    · change run.start + (run.last - run.start + 1) ≤ (0x10000 : Int)
      omega
  obtain ⟨rebuilt, built⟩ := (placeFrom_isOk (background _) 0).mpr placeable
  refine ⟨rebuilt, built, fun address inside => ?_⟩
  rw [(build_at address built inside).2, tiles.latest, if_pos ⟨Nat.zero_le _, inside⟩,
    Option.getD_some, Access.byte_ofByte (defined address inside)]

end Layout

end MemoryBoard
