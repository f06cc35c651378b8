import MemoryBoard.CommandLine.Run
import MemoryBoard.Proofs.CommandLine.Session
import MemoryBoard.Proofs.Memory.Partition
import MemoryBoard.Proofs.MemoryMap.Listing

set_option autoImplicit false

namespace MemoryBoard

namespace CommandLine

open Session

variable {yaml : Yaml.EventSource} {world : World} {path : Path} {image : Image}

/-- Listing the sections of a memory map prints those of its image and does nothing else. -/
theorem MapBuilds.lists (builds : MapBuilds yaml world path image) :
    ∃ log, Ends ((Command.memoryMap ⟨.value path, true⟩).run yaml) world ()
      { world with printed := world.printed ++ Section.documents image.sections, log } := by
  obtain ⟨segments, between, log, read, built⟩ :=
    builds.ends (world.log.push ⟨"cli", s!"command {(Command.memoryMap ⟨.value path, true⟩).name}"⟩)
  refine ⟨log, ?_⟩
  rw [Command.run, ends_report_bind]
  simp only [listMemoryMap, ends_demand_bind, ↓reduceIte]
  refine ⟨path, rfl, ?_⟩
  apply ends_bind.mpr
  refine ⟨segments, _, read, ?_⟩
  apply ends_bind.mpr
  exact ⟨image, _, built, ends_print.mpr rfl⟩

/-- A listing is parsed as the documents that it is made of, from a text and from a file. Whatever
is parsed as these is a memory map with one segment for each section and with the attributes of the
image, and its own listing is the same. -/
theorem sections_relisted (image : Image)
    (defined : (∀ address < addressCount, image.attributeAt address < 4) ∨
      ∃ files segments, Layout.build files segments = .ok image) :
    let text := Section.documents image.sections
    let bytes := Text.encodeUtf8 text.toList
    (∃ events, Yaml.textEvents text = ⟨events, none⟩ ∧ Yaml.fileEvents bytes = ⟨events, none⟩ ∧
      MemoryMap.Lists image.sections events) ∧
    (∀ reading : Yaml.Reading, MemoryMap.Lists image.sections reading.events →
      ∀ setting files, ∃ state rebuilt, MemoryMap.read setting reading = (state, none) ∧
        state.segments.toList = image.sections.map Section.segment ∧
        Layout.build files state.segments.toList = .ok rebuilt ∧
        (∀ address < addressCount, rebuilt.attributeAt address = image.attributeAt address) ∧
        rebuilt.sections = image.sections) ∧
    ∀ (yaml : Yaml.EventSource) (world : World) (path : Path),
      world.tree.read path = .ok bytes → MemoryMap.Lists image.sections (yaml bytes).events →
      ∃ log, Ends ((Command.memoryMap ⟨.value path, true⟩).run yaml) world ()
        { world with printed := world.printed ++ text, log } := by
  intro text bytes
  have lies := image.sections_tile.lies (Nat.le_refl _)
  obtain ⟨events, parsed, lists⟩ := MemoryMap.exists_lists lies
  have allDefined : ∀ address < addressCount, image.attributeAt address < 4 := by
    rcases defined with given | ⟨files, segments, built⟩
    · exact given
    · exact fun address inside => Layout.build_defined built inside
  have rebuilds (reading : Yaml.Reading) (lists : MemoryMap.Lists image.sections reading.events)
      (setting : MemoryMap.Setting) (files : Layout.Setting) : ∃ state rebuilt,
      MemoryMap.read setting reading = (state, none) ∧
      state.segments.toList = image.sections.map Section.segment ∧
      Layout.build files state.segments.toList = .ok rebuilt ∧
      (∀ address < addressCount, rebuilt.attributeAt address = image.attributeAt address) ∧
      rebuilt.sections = image.sections := by
    obtain ⟨state, read, segments⟩ := MemoryMap.read_lists lists lies
    obtain ⟨rebuilt, built, same⟩ := Layout.build_sections files allDefined
    exact ⟨state, rebuilt, read, segments, segments ▸ built, same, Image.sections_congr same⟩
  refine ⟨⟨events, parsed, ?_, lists⟩, rebuilds, fun yaml world path found lists => ?_⟩
  · rw [← parsed]
    exact MemoryMap.fileEvents_documents lies
  · obtain ⟨state, rebuilt, read, _, built, _, same⟩ :=
      rebuilds (yaml bytes) lists ⟨some path.parent, world.tree.size⟩ ⟨none, world.tree.read⟩
    have builds : MapBuilds yaml world path rebuilt := ⟨bytes, state, found, read, built⟩
    have listed := builds.lists
    rwa [same] at listed

/-- The listing of a memory that is vacant but for its last address. -/
theorem sections_relisted_pair :
    let image := (Image.uniform 0 1).storeAttribute 0xffff 2
    let pair : List Section := [⟨0, 0xfffe, ⟨false, true⟩⟩, ⟨0xffff, 0xffff, ⟨true, false⟩⟩]
    let text := "---\nstart: 0x0000\nend: 0xFFFE\nenabled: false\ntype: rom\n" ++
      "---\nstart: 0xFFFF\nend: 0xFFFF\nenabled: true\ntype: ram\n"
    let bytes := Text.encodeUtf8 text.toList
    (∀ address < addressCount, image.attributeAt address < 4) ∧ image.sections = pair ∧
      Section.documents pair = text ∧
      (∃ events, Yaml.textEvents text = ⟨events, none⟩ ∧ Yaml.fileEvents bytes = ⟨events, none⟩ ∧
        MemoryMap.Lists pair events) ∧
      (∀ reading : Yaml.Reading, MemoryMap.Lists pair reading.events →
        ∀ setting files, ∃ state rebuilt, MemoryMap.read setting reading = (state, none) ∧
          state.segments.size = 2 ∧ Layout.build files state.segments.toList = .ok rebuilt ∧
          (∀ address < addressCount, rebuilt.attributeAt address = image.attributeAt address) ∧
          rebuilt.sections = pair) ∧
      let world : World := ⟨⟨[(.ofNames ["map.yaml"], bytes)], []⟩, [], #[]⟩
      ∃ log, Ends ((Command.memoryMap ⟨.value (.ofText "map.yaml"), true⟩).run Yaml.fileEvents)
        world () { world with printed := text, log } := by
  intro image pair text bytes
  have same : image.sections = pair := Image.sections_cornered
  have printed : Section.documents pair = text := by decide +kernel
  obtain ⟨parsed, rebuilds, lists⟩ := sections_relisted image (Or.inl Image.cornered_defined)
  rw [same, printed] at parsed lists
  rw [same] at rebuilds
  obtain ⟨events, fromText, fromFile, listed⟩ := parsed
  refine ⟨Image.cornered_defined, same, printed, ⟨events, fromText, fromFile, listed⟩, ?_, ?_⟩
  · intro reading listed setting files
    obtain ⟨state, rebuilt, read, segments, built, again, relisted⟩ :=
      rebuilds reading listed setting files
    refine ⟨state, rebuilt, read, ?_, built, again, relisted⟩
    rw [← Array.length_toList, segments]
    rfl
  · intro world
    have found : world.tree.read (.ofText "map.yaml") = .ok bytes := by decide +kernel
    exact lists Yaml.fileEvents world _ found (by rw [fromFile]; exact listed)

end CommandLine

end MemoryBoard
