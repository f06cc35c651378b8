import MemoryBoard.Proofs.Uf2.Written

set_option autoImplicit false

namespace MemoryBoard.Uf2

/-- Where a block goes, and what it puts there. -/
def Block.placement (block : Block) : Nat × Bytes :=
  (block.target, block.payload)

/-- The memory with bytes put in from an address on. -/
def programmed (memory : Nat → UInt8) (placement : Nat × Bytes) (address : Nat) : UInt8 :=
  if placement.1 ≤ address then placement.2[address - placement.1]?.getD (memory address)
  else memory address

/-- The memory after blocks were put in one after another. -/
def flash (memory : Nat → UInt8) (blocks : List Block) : Nat → UInt8 :=
  (blocks.map Block.placement).foldl programmed memory

variable {memory other : Nat → UInt8} {blocks first second : List Block} {address : Nat}

theorem programmed_outside {placement : Nat × Bytes}
    (outside : address < placement.1 ∨ placement.1 + placement.2.length ≤ address) :
    programmed memory placement address = memory address := by
  unfold programmed
  split
  · rw [List.getElem?_eq_none (by omega), Option.getD_none]
  · rfl

theorem programmed_congr {placement : Nat × Bytes} (same : memory address = other address) :
    programmed memory placement address = programmed other placement address := by
  unfold programmed
  rw [same]

theorem flash_outside (outside : ∀ block ∈ blocks,
      address < block.target ∨ block.target + block.payload.length ≤ address) :
    flash memory blocks address = memory address := by
  unfold flash
  induction blocks generalizing memory with
  | nil => rfl
  | cons block rest ih =>
    obtain ⟨here, later⟩ := List.forall_mem_cons.mp outside
    rw [List.map_cons, List.foldl_cons, ih later]
    exact programmed_outside here

theorem flash_congr (same : memory address = other address) :
    flash memory blocks address = flash other blocks address := by
  unfold flash
  induction blocks generalizing memory other with
  | nil => exact same
  | cons block rest ih =>
    rw [List.map_cons, List.foldl_cons, List.foldl_cons]
    exact ih (programmed_congr same)

/-- Blocks that go to one side of an address and those that go to the other can be put in in either
order. -/
theorem flash_comm (border : Nat)
    (below : ∀ block ∈ first, block.target + block.payload.length ≤ border)
    (above : ∀ block ∈ second, border ≤ block.target) :
    flash (flash memory first) second = flash (flash memory second) first := by
  funext address
  by_cases low : address < border
  · have free : ∀ block ∈ second,
        address < block.target ∨ block.target + block.payload.length ≤ address := by
      intro block member
      have bound := above block member
      omega
    rw [flash_outside free]
    exact flash_congr (flash_outside free).symm
  · have free : ∀ block ∈ first,
        address < block.target ∨ block.target + block.payload.length ≤ address := by
      intro block member
      have bound := below block member
      omega
    rw [flash_outside free]
    exact flash_congr (flash_outside free)

variable {data rest : Bytes} {target : Int}

/-- Where every block has a target, the file holds them all. -/
theorem write_whole (positive : 0 ≤ target) (room : target + data.length ≤ 0x100000000) :
    Carried data target (carriers data target) ∧
      ∃ file, write data target = (file, some (carriers data target).length) ∧
        read file = .ok (carriers data target) := by
  have size : data.length ≤ 2 ^ 32 := by omega
  have count : (carriers data target).length = (data.length + 255) / 256 := length_carriers
  have reaches : Reaches data target (carriers data target).length := by
    refine ⟨Nat.le_refl _, fun index before => ?_, Or.inl rfl⟩
    unfold IsTarget payloadStep
    omega
  have carried := carriers_carried reaches
  have written := write_eq size reaches
  have readable := (read_blocks (carriers_fit size reaches)).1
  rw [List.take_length] at carried written readable
  rw [if_pos rfl] at written
  exact ⟨carried, _, written, readable⟩

theorem Carried.bounds (carried : Carried data target blocks) :
    ∀ block ∈ blocks, target ≤ block.target ∧
      (block.target : Int) + block.payload.length ≤ target + 256 * blocks.length := by
  intro block member
  obtain ⟨index, found⟩ := List.mem_iff_getElem?.mp member
  obtain ⟨inside, _⟩ := List.getElem?_eq_some_iff.mp found
  obtain ⟨here, _, length, _⟩ := carried.fields index block found
  omega

/-- Each block ends before all later ones begin. -/
theorem Carried.apart (carried : Carried data target blocks) :
    blocks.Pairwise fun first second => first.target + first.payload.length ≤ second.target := by
  rw [List.pairwise_iff_getElem]
  intro i j insideFirst insideSecond before
  obtain ⟨first, _, length, _⟩ := carried.fields i _ (List.getElem?_eq_getElem insideFirst)
  obtain ⟨second, _⟩ := carried.fields j _ (List.getElem?_eq_getElem insideSecond)
  omega

theorem placement_carriers : (carriers data target).map Block.placement =
    (chunks payloadStep data).mapIdx fun index piece =>
      ((target + payloadStep * index).toNat, Bytes.padded payloadStep piece) := by
  apply List.ext_getElem?
  intro index
  rw [List.getElem?_map, getElem?_carriers, Option.map_map, List.getElem?_mapIdx]
  rfl

/-- Whole blocks come out the same whatever comes behind them. -/
theorem placement_carriers_append (whole : data.length % 256 = 0) :
    (carriers (data ++ rest) target).map Block.placement =
      (carriers data target).map Block.placement ++
        (carriers rest (target + data.length)).map Block.placement := by
  have count : (chunks payloadStep data).length = (data.length + 255) / 256 :=
    length_chunks (by decide) data
  have cut : chunks payloadStep (data ++ rest) =
      chunks payloadStep data ++ chunks payloadStep rest := chunks_append (by decide) whole
  rw [placement_carriers, placement_carriers, placement_carriers, cut, List.mapIdx_append, count]
  have shift (index : Nat) : target + payloadStep * ((index + (data.length + 255) / 256 : Nat)) =
      target + data.length + payloadStep * index := by
    unfold payloadStep
    omega
  simp only [shift]

end MemoryBoard.Uf2
