import MemoryBoard.CommandLine.Convert
import MemoryBoard.Proofs.CommandLine.Session
import MemoryBoard.Proofs.Format

set_option autoImplicit false

namespace MemoryBoard

/-- Whether an address is one of the block's, in a file that begins at `origin`. -/
def Block.CoversFrom (origin : Nat) (block : Block) (address : Nat) : Prop :=
  origin + block.start ≤ address ∧ address < origin + block.start + block.count

/-- Whether an address is the lowest one of some blocks. -/
def Block.IsLowest (origin : Nat) (blocks : List Block) (first : Nat) : Prop :=
  (∀ block ∈ blocks, first ≤ origin + block.start) ∧
    ∃ block ∈ blocks, first = origin + block.start

/-- Whether an address is the one behind the highest of some blocks. -/
def Block.IsPastHighest (origin : Nat) (blocks : List Block) (past : Nat) : Prop :=
  (∀ block ∈ blocks, origin + block.start + block.count ≤ past) ∧
    ∃ block ∈ blocks, past = origin + block.start + block.count

namespace CommandLine

open Session

/-- Where the first address of a file goes, by the start that is given or not. -/
def Origin (format : InputFormat) (start : Option (Argument Nat)) (origin : Nat) : Prop :=
  if format.isAddressed then start = none ∧ origin = 0 else start = some (.value origin)

theorem Origin.unique {format : InputFormat} {start : Option (Argument Nat)} {first second : Nat}
    (one : Origin format start first) (other : Origin format start second) : first = second := by
  unfold Origin at one other
  split at one
  · rename_i addressed
    simp only [addressed, ↓reduceIte] at other
    omega
  · rename_i bare
    simp only [bare, Bool.false_eq_true, ↓reduceIte] at other
    rw [one] at other
    cases other
    rfl

section

variable {format : InputFormat} {start : Option (Argument Nat)} {blocks : List Block}
  {buffer : Array UInt8} {block : Block} {origin place : Nat} {image placed : Image}

theorem blockStart_eq_ok (sound : format.Sound blocks buffer) (member : block ∈ blocks) :
    blockStart format start block = .ok (.value place) ↔
      ∃ origin, Origin format start origin ∧ place = origin + block.start := by
  have hasStart := sound.hasStart block member
  cases own : format.isAddressed with
  | true =>
    rw [own] at hasStart
    simp only [blockStart, hasStart, Origin, own, ↓reduceIte]
    cases start with
    | none =>
      constructor
      · intro success
        cases success
        exact ⟨0, ⟨rfl, rfl⟩, (Nat.zero_add _).symm⟩
      · rintro ⟨_, ⟨_, rfl⟩, rfl⟩
        rw [Nat.zero_add]
    | some given =>
      constructor
      · intro impossible
        cases impossible
      · rintro ⟨_, ⟨impossible, _⟩, _⟩
        cases impossible
  | false =>
    rw [own] at hasStart
    obtain ⟨count, alone⟩ := sound.single own
    rw [alone, List.mem_singleton] at member
    rw [member]
    simp only [blockStart, Origin, own, Bool.false_eq_true, ↓reduceIte, Nat.add_zero]
    cases start with
    | none =>
      constructor
      · intro impossible
        cases impossible
      · rintro ⟨_, impossible, _⟩
        cases impossible
    | some given =>
      constructor
      · intro success
        cases success
        exact ⟨place, rfl, rfl⟩
      · rintro ⟨_, same, rfl⟩
        cases same
        rfl

/-- The bytes that the buffer holds for a run of addresses. -/
theorem getElem?_extract_run (size : buffer.size = format.stride * addressCount)
    {first count i : Nat}
    (inside : first + count ≤ addressCount) (covered : i < count) :
    (buffer.extract (first * format.stride) ((first + count) * format.stride)).toList[
        format.stride * i]? = buffer[format.stride * (first + i)]? := by
  have positive := format.stride_pos
  have low : format.stride * (first + i) = first * format.stride + format.stride * i := by
    rw [Nat.mul_add, Nat.mul_comm format.stride first]
  have high : format.stride * (first + i) < (first + count) * format.stride := by
    rw [Nat.mul_comm (first + count)]
    exact (Nat.mul_lt_mul_left positive).mpr (by omega)
  have room : format.stride * (first + i) < format.stride * addressCount :=
    (Nat.mul_lt_mul_left positive).mpr (by omega)
  rw [Array.getElem?_toList, Array.getElem?_extract, low]
  have within : format.stride * i <
      min ((first + count) * format.stride) buffer.size - first * format.stride := by
    omega
  simp only [within, ↓reduceIte]

theorem length_extract_run (size : buffer.size = format.stride * addressCount) {first count : Nat}
    (inside : first + count ≤ addressCount) :
    (buffer.extract (first * format.stride) ((first + count) * format.stride)).toList.length =
      count * format.stride := by
  have room : (first + count) * format.stride ≤ buffer.size := by
    rw [size, Nat.mul_comm]
    exact Nat.mul_le_mul_left _ inside
  rw [Array.length_toList, Array.size_extract, Nat.min_eq_left room, Nat.add_mul]
  omega

/-- A placed block gives its bytes to its addresses and leaves the others alone. -/
theorem placeBlock_dataAt (sound : format.Sound blocks buffer) (member : block ∈ blocks)
    (success : placeBlock format buffer place block image = .ok placed) :
    place + block.count ≤ addressCount ∧
      ∀ address, placed.dataAt address =
        if place ≤ address ∧ address < place + block.count then
          format.byteAt buffer (block.start + (address - place))
        else image.dataAt address := by
  have inside := sound.inside block member
  have size := sound.size
  have length := length_extract_run size inside
  have byte {address : Nat} (covered : place ≤ address ∧ address < place + block.count) :=
    getElem?_extract_run size inside (show address - place < block.count by omega)
  have stride := format.stride_eq
  unfold placeBlock at success
  simp only [sound.offset member] at success
  split at success
  · rename_i cells
    simp only [cells, ↓reduceIte] at stride
    rw [stride] at length byte
    obtain ⟨_, ⟨_, _, room⟩, _⟩ := Image.writeCells_eq_ok.mp success
    have half : (buffer.extract (block.start * 2) ((block.start + block.count) * 2)).toList.length /
        2 = block.count := by omega
    rw [half] at room
    refine ⟨by omega, fun address => ?_⟩
    rw [Image.dataAt_writeCells success, half]
    by_cases covered : place ≤ address ∧ address < place + block.count
    · have same : (place : Int) ≤ address ∧ (address : Int) < place + block.count := by omega
      simp only [same, covered, and_self, ↓reduceIte, Int.toNat_natCast, byte covered, stride,
        InputFormat.byteAt]
    · have other : ¬ ((place : Int) ≤ address ∧ (address : Int) < place + block.count) := by omega
      simp only [other, covered, ↓reduceIte]
  · rename_i bytes
    simp only [bytes, ↓reduceIte, Bool.false_eq_true] at stride
    rw [stride] at length byte
    simp only [Nat.mul_one, Nat.one_mul] at length byte
    obtain ⟨⟨_, _, room⟩, _⟩ := Image.writeData_eq_ok.mp success
    rw [length] at room
    refine ⟨by omega, fun address => ?_⟩
    rw [Image.dataAt_writeData success, length]
    by_cases covered : place ≤ address ∧ address < place + block.count
    · have same : (place : Int) ≤ address ∧ (address : Int) < place + block.count := by omega
      simp only [same, covered, and_self, ↓reduceIte, Int.toNat_natCast, byte covered, stride,
        InputFormat.byteAt, Nat.one_mul]
    · have other : ¬ ((place : Int) ≤ address ∧ (address : Int) < place + block.count) := by omega
      simp only [other, covered, ↓reduceIte]

theorem placeBlock_isOk (sound : format.Sound blocks buffer) (member : block ∈ blocks)
    (room : place + block.count ≤ addressCount) (image : Image) :
    ∃ placed, placeBlock format buffer place block image = .ok placed := by
  have length := length_extract_run sound.size (sound.inside block member)
  have stride := format.stride_eq
  unfold placeBlock
  simp only [sound.offset member]
  split
  · rename_i cells
    simp only [cells, ↓reduceIte] at stride
    rw [stride] at length
    exact Image.writeCells_isOk.mpr ⟨by omega, by omega, by omega, by omega⟩
  · rename_i bytes
    simp only [bytes, ↓reduceIte, Bool.false_eq_true] at stride
    rw [stride] at length
    simp only [Nat.mul_one] at length
    exact Image.writeData_isOk.mpr ⟨by omega, by omega, by omega⟩

/-- What placing blocks into an image has done. `low` and `high` are the bounds from before. -/
structure Placed (format : InputFormat) (buffer : Array UInt8) (origin : Nat) (blocks : List Block)
    (image : Image) (low high : Int) (loaded : Loaded) : Prop where
  inside : ∀ block ∈ blocks, origin + block.start + block.count ≤ addressCount
  covered : ∀ address, (∃ block ∈ blocks, block.CoversFrom origin address) →
    loaded.image.dataAt address = format.byteAt buffer (address - origin)
  bare : ∀ address, (∀ block ∈ blocks, ¬ block.CoversFrom origin address) →
    loaded.image.dataAt address = image.dataAt address
  lower : loaded.start ≤ low ∧ ∀ block ∈ blocks, loaded.start ≤ (origin + block.start : Nat)
  lowest : loaded.start = low ∨ ∃ block ∈ blocks, loaded.start = (origin + block.start : Nat)
  upper : high ≤ loaded.start + loaded.count ∧
    ∀ block ∈ blocks, (origin + block.start + block.count : Nat) ≤ loaded.start + loaded.count
  highest : loaded.start + loaded.count = high ∨
    ∃ block ∈ blocks, loaded.start + loaded.count = (origin + block.start + block.count : Nat)

/-- One more block in front of the others. -/
theorem Placed.cons {low high : Int} {loaded : Loaded}
    (later : Placed format buffer origin blocks placed (min low (origin + block.start : Nat))
      (max high (origin + block.start + block.count : Nat)) loaded)
    (room : origin + block.start + block.count ≤ addressCount)
    (here : ∀ address, placed.dataAt address =
      if origin + block.start ≤ address ∧ address < origin + block.start + block.count then
        format.byteAt buffer (block.start + (address - (origin + block.start)))
      else image.dataAt address) :
    Placed format buffer origin (block :: blocks) image low high loaded := by
  refine ⟨?_, ?_, ?_, ?_, ?_, ?_, ?_⟩
  · intro other member
    rcases List.mem_cons.mp member with rfl | old
    · exact room
    · exact later.inside other old
  · rintro address ⟨other, member, covers⟩
    by_cases again : ∃ block ∈ blocks, block.CoversFrom origin address
    · exact later.covered address again
    · have free : ∀ block ∈ blocks, ¬ block.CoversFrom origin address := fun block inside covers =>
        again ⟨block, inside, covers⟩
      rcases List.mem_cons.mp member with rfl | old
      · obtain ⟨low, high⟩ := covers
        have offset : other.start + (address - (origin + other.start)) = address - origin := by
          omega
        rw [later.bare address free, here]
        simp only [low, high, and_self, ↓reduceIte, offset]
      · exact absurd covers (free other old)
  · intro address free
    have free' : ¬ block.CoversFrom origin address := free block List.mem_cons_self
    rw [later.bare address fun other member => free other (List.mem_cons_of_mem block member), here]
    unfold Block.CoversFrom at free'
    simp only [free', ↓reduceIte]
  · obtain ⟨below, each⟩ := later.lower
    refine ⟨by omega, fun other member => ?_⟩
    rcases List.mem_cons.mp member with rfl | old
    · omega
    · exact each other old
  · rcases later.lowest with bound | ⟨other, member, same⟩
    · by_cases lower : low ≤ (origin + block.start : Nat)
      · exact Or.inl (by omega)
      · exact Or.inr ⟨block, List.mem_cons_self, by omega⟩
    · exact Or.inr ⟨other, List.mem_cons_of_mem block member, same⟩
  · obtain ⟨above, each⟩ := later.upper
    refine ⟨by omega, fun other member => ?_⟩
    rcases List.mem_cons.mp member with rfl | old
    · omega
    · exact each other old
  · rcases later.highest with bound | ⟨other, member, same⟩
    · by_cases higher : (origin + block.start + block.count : Nat) ≤ high
      · exact Or.inl (by omega)
      · exact Or.inr ⟨block, List.mem_cons_self, by omega⟩
    · exact Or.inr ⟨other, List.mem_cons_of_mem block member, same⟩

/-- Only reports are added to the world while blocks are placed. -/
theorem placeBlocks_ends {all : List Block} (sound : format.Sound all buffer)
    (origin_ : Origin format start origin) (members : ∀ block ∈ blocks, block ∈ all)
    {low high : Int} {world after : World} {loaded : Loaded}
    (ended : Ends (placeBlocks format start buffer image low high blocks) world loaded after) :
    Placed format buffer origin blocks image low high loaded ∧
      ∃ log, after = { world with log } := by
  induction blocks generalizing image low high world with
  | nil =>
    obtain ⟨rfl, rfl⟩ := ends_pure.mp ended
    refine ⟨⟨?_, ?_, ?_, ?_, ?_, ?_, ?_⟩, after.log, rfl⟩
    · exact fun _ member => by cases member
    · rintro address ⟨_, member, _⟩
      cases member
    · exact fun _ _ => rfl
    · exact ⟨Int.le_refl _, fun _ member => by cases member⟩
    · exact Or.inl rfl
    · exact ⟨by simp only; omega, fun _ member => by cases member⟩
    · exact Or.inl (by simp only; omega)
  | cons block rest ih =>
    rw [placeBlocks] at ended
    simp only [ends_lift_bind, ends_demand_bind, ends_report_bind] at ended
    obtain ⟨_, started, place, rfl, next, success, ended⟩ := ended
    have member := members block List.mem_cons_self
    obtain ⟨other, again, rfl⟩ := (blockStart_eq_ok sound member).mp started
    obtain rfl := origin_.unique again
    obtain ⟨room, here⟩ := placeBlock_dataAt sound member success
    obtain ⟨later, log, same⟩ :=
      ih (fun other inside => members other (List.mem_cons_of_mem block inside)) ended
    exact ⟨Placed.cons later room here, log, same⟩

/-- Blocks with room above the address that their file goes to can be placed. -/
theorem placeBlocks_succeeds {all : List Block} (sound : format.Sound all buffer)
    (chosen : Origin format start origin) (members : ∀ block ∈ blocks, block ∈ all)
    (room : ∀ block ∈ blocks, origin + block.start + block.count ≤ addressCount) (image : Image)
    (low high : Int) (world : World) :
    ∃ loaded after,
      Ends (placeBlocks format start buffer image low high blocks) world loaded after := by
  induction blocks generalizing image low high world with
  | nil => exact ⟨_, _, ends_pure.mpr ⟨rfl, rfl⟩⟩
  | cons block rest ih =>
    have member := members block List.mem_cons_self
    have started := (blockStart_eq_ok sound member).mpr ⟨origin, chosen, rfl⟩
    obtain ⟨next, success⟩ :=
      placeBlock_isOk sound member (room block List.mem_cons_self) image
    obtain ⟨loaded, after, later⟩ :=
      ih (fun other inside => members other (List.mem_cons_of_mem block inside))
        (fun other inside => room other (List.mem_cons_of_mem block inside)) next _ _ _
    refine ⟨loaded, after, ?_⟩
    simp only [placeBlocks, ends_lift_bind, ends_demand_bind, ends_report_bind]
    exact ⟨_, started, _, rfl, next, success, later⟩

/-- Blocks that were placed into an empty image span the addresses from the lowest to the
highest. -/
theorem Placed.span {loaded : Loaded}
    (done : Placed format buffer origin blocks image addressCount 0 loaded)
    (sound : format.Sound blocks buffer) (some : blocks ≠ []) :
    ∃ first count : Nat, loaded.start = first ∧ loaded.count = count ∧ 0 < count ∧
      Block.IsLowest origin blocks first ∧ Block.IsPastHighest origin blocks (first + count) := by
  obtain ⟨head, member⟩ := List.exists_mem_of_ne_nil blocks some
  have nonempty := sound.nonempty head member
  have inside := done.inside head member
  have below := done.lower.2 head member
  have above := done.upper.2 head member
  obtain ⟨lowest, lowestMember, start⟩ : ∃ block ∈ blocks,
      loaded.start = (origin + block.start : Nat) := by
    rcases done.lowest with bound | found
    · omega
    · exact found
  obtain ⟨highest, highestMember, past⟩ : ∃ block ∈ blocks,
      loaded.start + loaded.count = (origin + block.start + block.count : Nat) := by
    rcases done.highest with bound | found
    · omega
    · exact found
  refine ⟨origin + lowest.start, loaded.count.toNat, start, by omega, by omega,
    ⟨fun block inside => ?_, lowest, lowestMember, rfl⟩,
    ⟨fun block inside => ?_, highest, highestMember, by omega⟩⟩
  · have bound := done.lower.2 block inside
    omega
  · have bound := done.upper.2 block inside
    omega

end

end CommandLine

end MemoryBoard
