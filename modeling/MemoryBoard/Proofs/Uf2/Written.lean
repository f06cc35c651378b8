import MemoryBoard.Proofs.Bytes
import MemoryBoard.Proofs.Uf2.Block

set_option autoImplicit false

/- The blocks that carry data to an address. A file that was written holds them all, or those before
the first one whose target does not fit in 32 bits, and they are read back. -/
namespace MemoryBoard.Uf2

/-- The block for one of `total` pieces of the data for an address. -/
def carrier (address : Int) (total index : Nat) (piece : Bytes) : Block where
  flags := familyFlag
  target := (address + payloadStep * index).toNat
  payloadSize := payloadStep
  number := index
  total
  family := boardFamily
  payload := piece.padded payloadStep

/-- The blocks that carry data to an address. -/
def carriers (data : Bytes) (address : Int) : List Block :=
  let pieces := chunks payloadStep data
  pieces.mapIdx (carrier address pieces.length)

/-- What stands behind the payload of a block that is written. -/
def unused : Bytes :=
  List.replicate (dataArea - payloadStep) 0

theorem length_unused : unused.length = dataArea - payloadStep :=
  List.length_replicate

/-- Whether a block can go to an address. -/
def IsTarget (address : Int) : Prop :=
  0 ≤ address ∧ address ≤ 0xffffffff

instance (address : Int) : Decidable (IsTarget address) :=
  inferInstanceAs (Decidable (_ ∧ _))

variable {data piece : Bytes} {address : Int} {total index : Nat}

/-- Words that all fit are packed one after another. -/
theorem packWords_eq_some {words : List Int} {bytes : Bytes} :
    packWords words = some bytes ↔
      (∀ word ∈ words, IsTarget word) ∧
        bytes = (words.map Int.toNat).flatMap (Bytes.littleEndian 4) := by
  induction words generalizing bytes with
  | nil => simp [packWords, eq_comm]
  | cons word rest ih =>
    have small : word.toNat < Bytes.limit 4 ↔ word.toNat ≤ 0xffffffff :=
      Nat.lt_succ_iff
    rw [List.forall_mem_cons, List.map_cons, List.flatMap_cons]
    simp only [packWords, Option.bind_eq_bind, Option.bind_eq_some_iff, Bytes.packed?_eq_some,
      small, Option.pure_def, Option.some.injEq]
    constructor
    · intro ⟨first, ⟨positive, bound, same⟩, others, packed, whole⟩
      obtain ⟨targets, same'⟩ := ih.mp packed
      refine ⟨⟨⟨positive, by omega⟩, targets⟩, ?_⟩
      rw [← whole, same, same']
    · intro ⟨⟨⟨positive, bound⟩, targets⟩, same⟩
      exact ⟨_, ⟨positive, by omega, rfl⟩, _, ih.mpr ⟨targets, rfl⟩, same.symm⟩

theorem padded_dataArea (short : piece.length ≤ payloadStep) :
    piece.padded dataArea = piece.padded payloadStep ++ unused := by
  have zeros : dataArea - piece.length =
      payloadStep - piece.length + (dataArea - payloadStep) := by
    unfold dataArea payloadStep at *
    omega
  rw [Bytes.padded, zeros, ← List.replicate_append_replicate, ← List.append_assoc]
  rfl

/-- A block is written if its target fits, and then as its carrier stands in a file. -/
theorem writeBlock_eq (short : piece.length ≤ payloadStep) (before : index ≤ 0xffffffff)
    (few : total ≤ 0xffffffff) :
    writeBlock (address + payloadStep * index) index total piece =
      if IsTarget (address + payloadStep * index) then
        some ((carrier address total index piece).bytes unused)
      else none := by
  have packed {bytes : Bytes} : packWords [firstMagic, secondMagic, familyFlag,
        address + payloadStep * index, payloadStep, index, total, boardFamily] = some bytes ↔
      IsTarget (address + payloadStep * index) ∧
        bytes = (carrier address total index piece).words.flatMap (Bytes.littleEndian 4) := by
    have fixed (word : Nat) (small : word ≤ 0xffffffff) : IsTarget word := by
      unfold IsTarget
      omega
    rw [packWords_eq_some]
    simp only [List.forall_mem_cons, List.not_mem_nil, false_imp_iff, implies_true, and_true,
      fixed _ before, fixed _ few, fixed firstMagic (by decide), fixed secondMagic (by decide),
      fixed familyFlag (by decide), fixed payloadStep (by decide), fixed boardFamily (by decide),
      true_and]
    rfl
  by_cases target : IsTarget (address + payloadStep * index)
  · simp only [writeBlock, packed.mpr ⟨target, rfl⟩, target, ↓reduceIte, Block.bytes,
      padded_dataArea short]
    rfl
  · have nothing : packWords [firstMagic, secondMagic, familyFlag,
        address + payloadStep * index, payloadStep, index, total, boardFamily] = none := by
      rw [← Option.not_isSome_iff_eq_none, Option.isSome_iff_exists]
      rintro ⟨bytes, success⟩
      exact target (packed.mp success).1
    simp only [writeBlock, nothing, target, ↓reduceIte]
    rfl

theorem carrier_fits (short : piece.length ≤ payloadStep) (before : index ≤ 0xffffffff)
    (few : total ≤ 0xffffffff) (target : IsTarget (address + payloadStep * index)) :
    (carrier address total index piece).Fits unused := by
  have bound : (address + payloadStep * index).toNat ≤ 0xffffffff := by
    obtain ⟨_, _⟩ := target
    omega
  refine ⟨?_, ?_, ?_⟩
  · simp only [Block.words, carrier, List.forall_mem_cons, List.not_mem_nil, false_imp_iff,
      implies_true, and_true]
    unfold firstMagic secondMagic familyFlag payloadStep boardFamily at *
    omega
  · rw [carrier, Bytes.length_padded]
    exact Nat.max_eq_left short
  · rw [carrier, length_unused]
    rfl

theorem length_carriers : (carriers data address).length = (data.length + 255) / 256 := by
  rw [carriers, List.length_mapIdx, length_chunks (by decide)]
  rfl

theorem getElem?_carriers (index : Nat) : (carriers data address)[index]? =
    (chunks payloadStep data)[index]?.map
      (carrier address ((data.length + 255) / 256) index) := by
  have count : (chunks payloadStep data).length = (data.length + 255) / 256 :=
    length_chunks (by decide) data
  rw [carriers, List.getElem?_mapIdx, count]

/-- The front of some data, filled up where it is short. -/
theorem flatMap_padded_take {size count : Nat} (positive : 0 < size)
    (few : count ≤ (chunks size data).length) :
    ((chunks size data).take count).flatMap (Bytes.padded size) =
      Bytes.padded (size * count) (data.take (size * count)) := by
  induction count generalizing data with
  | zero => rfl
  | succ count ih =>
    have present : data ≠ [] := by
      intro nothing
      rw [nothing, chunks_nil] at few
      exact absurd few (by simp)
    rw [chunks_of_ne_nil present positive] at few ⊢
    rw [List.length_cons] at few
    rw [List.take_succ_cons, List.flatMap_cons, ih (by omega), Nat.mul_succ, Nat.add_comm]
    by_cases full : size ≤ data.length
    · have length : (data.take size).length = size := List.length_take_of_le full
      rw [Bytes.padded_of_le (Nat.le_of_eq length.symm), List.take_add,
        Bytes.padded_append length]
    · -- A short piece is the last one.
      have nothing : data.drop size = [] := List.drop_eq_nil_of_le (by omega)
      rw [nothing, chunks_nil, List.length_nil] at few
      have last : count = 0 := by omega
      rw [last, nothing, Nat.mul_zero, Nat.add_zero]
      exact List.append_nil _

/-- What a piece has to be like for its block to be written. -/
theorem bounds_of_piece (size : data.length ≤ 2 ^ 32)
    (found : (chunks payloadStep data)[index]? = some piece) :
    piece.length ≤ payloadStep ∧ index ≤ 0xffffffff ∧
      (chunks payloadStep data).length ≤ 0xffffffff := by
  have count : (chunks payloadStep data).length = (data.length + 255) / 256 :=
    length_chunks (by decide) data
  obtain ⟨inside, _⟩ := List.getElem?_eq_some_iff.mp found
  refine ⟨(ne_nil_of_mem_chunks (List.mem_of_getElem? found)).2, ?_, ?_⟩
  · omega
  · omega

theorem getElem?_blocksFor (size : data.length ≤ 2 ^ 32) (index : Nat) :
    (blocksFor data address)[index]? = (carriers data address)[index]?.map fun block =>
      if IsTarget (address + payloadStep * index) then some (block.bytes unused) else none := by
  rw [blocksFor, carriers, List.getElem?_mapIdx, List.getElem?_mapIdx]
  cases found : (chunks payloadStep data)[index]? with
  | none => rfl
  | some piece =>
    obtain ⟨short, before, few⟩ := bounds_of_piece size found
    simp only [Option.map_some, writeBlock_eq short before few]

/-- All blocks before some place can be written, and there is none at that place. -/
structure Reaches (data : Bytes) (address : Int) (stop : Nat) : Prop where
  few : stop ≤ (carriers data address).length
  targets : ∀ index < stop, IsTarget (address + payloadStep * index)
  ends : stop = (carriers data address).length ∨ ¬ IsTarget (address + payloadStep * stop)

variable {stop : Nat}

/-- Items that are there are taken up to the first that is missing. -/
theorem takeWhile_isSome (front : List Bytes) {rest : List (Option Bytes)}
    (ends : ∀ item, rest.head? = some item → item = none) :
    (front.map some ++ rest).takeWhile Option.isSome = front.map some ∧
      ((front.map some ++ rest).all Option.isSome = true ↔ rest = []) := by
  have present : ∀ item ∈ front.map some, item.isSome = true := by
    rw [List.forall_mem_map]
    exact fun _ _ => rfl
  rw [List.takeWhile_append_of_pos present, List.all_append, Bool.and_eq_true]
  cases rest with
  | nil =>
    rw [List.takeWhile_nil, List.append_nil]
    exact ⟨rfl, fun _ => rfl, fun _ => ⟨List.all_eq_true.mpr present, rfl⟩⟩
  | cons item later =>
    rw [ends item rfl]
    refine ⟨List.append_nil _, ?_, ?_⟩
    · rintro ⟨_, impossible⟩
      cases impossible
    · intro impossible
      cases impossible

/-- A file that was written holds the blocks before the first one that cannot be written. -/
theorem write_eq (size : data.length ≤ 2 ^ 32) (reaches : Reaches data address stop) :
    write data address =
      (((carriers data address).take stop).flatMap (·.bytes unused),
        if stop = (carriers data address).length then some stop else none) := by
  obtain ⟨few, targets, ends⟩ := reaches
  have count : (blocksFor data address).length = (carriers data address).length := by
    rw [blocksFor, carriers, List.length_mapIdx, List.length_mapIdx]
  let front := ((carriers data address).take stop).map (·.bytes unused)
  let rest := (blocksFor data address).drop stop
  have split : blocksFor data address = front.map some ++ rest := by
    have taken : (blocksFor data address).take stop = front.map some := by
      apply List.ext_getElem?
      intro index
      simp only [front, List.map_map, List.getElem?_take, List.getElem?_map]
      split
      · rename_i before
        rw [getElem?_blocksFor size]
        simp only [targets index before, ↓reduceIte, Function.comp_def]
      · rfl
    rw [← taken, List.take_append_drop]
  have stops : ∀ item, rest.head? = some item → item = none := by
    intro item first
    simp only [rest, List.head?_drop, getElem?_blocksFor size] at first
    rcases ends with all | misses
    · rw [List.getElem?_eq_none (by omega)] at first
      cases first
    · obtain ⟨block, _, same⟩ := Option.map_eq_some_iff.mp first
      rw [if_neg misses] at same
      exact same.symm
  have nothing : rest = [] ↔ stop = (carriers data address).length := by
    rw [List.drop_eq_nil_iff]
    omega
  obtain ⟨taken, every⟩ := takeWhile_isSome front stops
  rw [← split] at taken every
  have file : (front.map some).flatMap (·.getD []) =
      ((carriers data address).take stop).flatMap (·.bytes unused) := by
    rw [List.flatMap_map, List.flatMap_map]
    rfl
  simp only [write, taken, file, every, nothing, count]
  by_cases all : stop = (carriers data address).length
  · rw [if_pos all, if_pos all, all]
  · rw [if_neg all, if_neg all]

/-- The blocks that are written can stand in a file. -/
theorem carriers_fit (size : data.length ≤ 2 ^ 32) (reaches : Reaches data address stop) :
    ∀ block ∈ (carriers data address).take stop, block.Fits unused := by
  intro block member
  obtain ⟨index, found⟩ := List.mem_iff_getElem?.mp member
  rw [List.getElem?_take, carriers, List.getElem?_mapIdx] at found
  split at found
  · rename_i before
    obtain ⟨piece, there, same⟩ := Option.map_eq_some_iff.mp found
    obtain ⟨short, early, few⟩ := bounds_of_piece size there
    rw [← same]
    exact carrier_fits short early few (reaches.targets index before)
  · cases found

theorem exists_reaches (data : Bytes) (address : Int) : ∃ stop, Reaches data address stop := by
  by_cases positive : 0 ≤ address
  · let room := ((0x100000000 - address + 255) / 256).toNat
    refine ⟨min room (carriers data address).length, Nat.min_le_right _ _, ?_, ?_⟩
    · intro index before
      unfold IsTarget payloadStep
      omega
    · unfold IsTarget payloadStep
      omega
  · refine ⟨0, Nat.zero_le _, fun index impossible => absurd impossible (Nat.not_lt_zero index),
      Or.inr ?_⟩
    unfold IsTarget payloadStep
    omega

/-- Blocks that carry the front of some data to an address, as much of it as they have room for,
each numbered among all that the data take. -/
structure Carried (data : Bytes) (address : Int) (blocks : List Block) : Prop where
  fields : ∀ (index : Nat) (block : Block), blocks[index]? = some block →
    block.target = address + 256 * index ∧ block.payloadSize = 256 ∧
      block.payload.length = 256 ∧ block.number = index ∧
      block.total = (data.length + 255) / 256 ∧ block.flags = 0x2000 ∧ block.family = 0xe48bff56
  payload : blocks.flatMap Block.payload =
    Bytes.padded (256 * blocks.length) (data.take (256 * blocks.length))

theorem payload_carriers :
    (carriers data address).map Block.payload =
      (chunks payloadStep data).map (Bytes.padded payloadStep) := by
  apply List.ext_getElem?
  intro index
  rw [List.getElem?_map, List.getElem?_map, getElem?_carriers, Option.map_map]
  rfl

theorem carriers_carried (reaches : Reaches data address stop) :
    Carried data address ((carriers data address).take stop) := by
  constructor
  · intro index block found
    rw [List.getElem?_take, getElem?_carriers] at found
    split at found
    · rename_i before
      obtain ⟨piece, there, same⟩ := Option.map_eq_some_iff.mp found
      obtain ⟨positive, _⟩ := reaches.targets index before
      have short := (ne_nil_of_mem_chunks (List.mem_of_getElem? there)).2
      have length : (piece.padded payloadStep).length = 256 := by
        rw [Bytes.length_padded]
        exact Nat.max_eq_left short
      rw [← same]
      exact ⟨Int.toNat_of_nonneg positive, rfl, length, rfl, rfl, rfl, rfl⟩
    · cases found
  · have few := reaches.few
    rw [length_carriers, ← show (chunks payloadStep data).length = (data.length + 255) / 256 from
      length_chunks (by decide) data] at few
    have length : ((carriers data address).take stop).length = stop :=
      List.length_take_of_le reaches.few
    rw [length, List.flatMap_def, List.map_take, payload_carriers, ← List.map_take,
      ← List.flatMap_def]
    exact flatMap_padded_take (by decide) few

/-- The file for some data holds, block by block, the data with fewer zeros behind them than would
fill one more block. Where some block has no 32-bit target the file ends in front of the first such
block. In any case it is read back as it was meant. -/
theorem write_carried (data : Bytes) (address : Int) (size : data.length ≤ 2 ^ 32) :
    let total := (data.length + 255) / 256
    ∃ file count blocks, write data address = (file, count) ∧ read file = .ok blocks ∧
      file = blocks.flatMap (·.bytes unused) ∧ file.length = 512 * blocks.length ∧
      Carried data address blocks ∧
      if total = 0 ∨ 0 ≤ address ∧ address + 256 * ((total : Int) - 1) ≤ 0xffffffff then
        count = some total ∧ blocks.length = total ∧
          ∃ zeros < 256, blocks.flatMap Block.payload = data ++ List.replicate zeros 0
      else
        count = none ∧ blocks.length < total ∧
          (∀ index < blocks.length, IsTarget (address + 256 * index)) ∧
          ¬ IsTarget (address + 256 * blocks.length) := by
  intro total
  obtain ⟨stop, reaches⟩ := exists_reaches data address
  have carried := carriers_carried reaches
  obtain ⟨readable, blockwise⟩ := read_blocks (carriers_fit size reaches)
  have length : ((carriers data address).take stop).length = stop :=
    List.length_take_of_le reaches.few
  refine ⟨_, _, (carriers data address).take stop, write_eq size reaches, readable, rfl,
    blockwise, carried, ?_⟩
  rw [length, length_carriers]
  obtain ⟨few, targets, ends⟩ := reaches
  rw [length_carriers] at few ends
  split
  · rename_i within
    have all : stop = total := by
      rcases ends with all | misses
      · exact all
      · unfold IsTarget payloadStep at misses
        omega
    have filled : data.take (256 * stop) = data := List.take_of_length_le (by omega)
    refine ⟨by rw [if_pos all, all], all, 256 * stop - data.length, by omega, ?_⟩
    rw [carried.payload, length, filled, Bytes.padded]
  · rename_i without
    have some : stop ≠ total := by
      intro all
      have first := targets 0
      have last := targets (total - 1)
      unfold IsTarget payloadStep at first last
      omega
    refine ⟨if_neg some, by omega, targets, ?_⟩
    rcases ends with all | misses
    · exact absurd all some
    · exact misses

/-- Of two blocks at the end of the 32-bit addresses only the first is written. -/
theorem write_carried_top :
    let data : Bytes := List.replicate 257 0xab
    data.length ≤ 2 ^ 32 ∧
      ∃ file blocks, write data 0xffffff00 = (file, none) ∧ read file = .ok blocks ∧
        file = blocks.flatMap (·.bytes unused) ∧ file.length = 512 ∧
        Carried data 0xffffff00 blocks ∧ blocks.length = 1 ∧
        blocks.flatMap Block.payload = data.take 256 := by
  intro data
  have length : data.length = 257 := List.length_replicate
  have size : data.length ≤ 2 ^ 32 := by omega
  obtain ⟨file, count, blocks, written, readable, whole, blockwise, carried, ending⟩ :=
    write_carried data 0xffffff00 size
  rw [if_neg (by omega)] at ending
  obtain ⟨rfl, some, targets, misses⟩ := ending
  unfold IsTarget at targets misses
  have one : blocks.length = 1 := by omega
  have payload := carried.payload
  rw [one, Nat.mul_one, Bytes.padded_of_le (by rw [List.length_take]; omega)] at payload
  rw [one] at blockwise
  exact ⟨size, file, blocks, written, readable, whole, blockwise, carried, one, payload⟩

end MemoryBoard.Uf2
