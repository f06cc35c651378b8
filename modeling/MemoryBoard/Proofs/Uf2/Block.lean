import Mathlib.Algebra.Group.Nat.Defs
import MemoryBoard.Proofs.Chunks
import MemoryBoard.Proofs.Except
import MemoryBoard.Uf2

set_option autoImplicit false

namespace MemoryBoard.Uf2

namespace Block

/-- The words of the header in order. -/
def words (block : Block) : List Nat :=
  [firstMagic, secondMagic, block.flags, block.target, block.payloadSize, block.number,
    block.total, block.family]

/-- A block in a file, with other bytes behind its payload. -/
def bytes (block : Block) (unused : Bytes) : Bytes :=
  block.words.flatMap (Bytes.littleEndian 4) ++ (block.payload ++ unused) ++
    Bytes.littleEndian 4 lastMagic

/-- Whether a block can stand in a file, with just these bytes behind its payload. -/
structure Fits (block : Block) (unused : Bytes) : Prop where
  words : ∀ word ∈ block.words, word < 2 ^ 32
  payload : block.payload.length = block.payloadSize
  area : block.payloadSize + unused.length = dataArea

end Block

theorem length_words (words : List Nat) :
    (words.flatMap (Bytes.littleEndian 4)).length = 4 * words.length :=
  length_flatMap_of_length fun word _ => Bytes.length_littleEndian 4 word

theorem wordAt_append {front rest : Bytes} {offset : Nat} (behind : front.length = offset) :
    wordAt (front ++ rest) offset = Bytes.toNat (rest.take 4) := by
  rw [wordAt, ← behind, List.drop_left]

theorem toNat_word {word : Nat} (small : word < 2 ^ 32) (rest : Bytes) :
    Bytes.toNat ((Bytes.littleEndian 4 word ++ rest).take 4) = word := by
  rw [List.take_left' (Bytes.length_littleEndian 4 word), Bytes.toNat_littleEndian]
  exact Nat.mod_eq_of_lt small

/-- Each word is found at its place. -/
theorem wordAt_words {words : List Nat} {word index : Nat} (small : word < 2 ^ 32)
    (there : words[index]? = some word) (rest : Bytes) :
    wordAt (words.flatMap (Bytes.littleEndian 4) ++ rest) (4 * index) = word := by
  obtain ⟨inside, here⟩ := List.getElem?_eq_some_iff.mp there
  have front : ((words.take index).flatMap (Bytes.littleEndian 4)).length = 4 * index := by
    rw [length_words, List.length_take]
    omega
  have split : words = words.take index ++ word :: words.drop (index + 1) := by
    rw [← here, List.getElem_cons_drop, List.take_append_drop]
  rw [split, List.flatMap_append, List.append_assoc, wordAt_append front, List.flatMap_cons,
    List.append_assoc, toNat_word small]

variable {block : Block} {unused : Bytes}

theorem Block.length_bytes (fits : block.Fits unused) :
    (block.bytes unused).length = blockSize := by
  have area := fits.area
  rw [← fits.payload, dataArea] at area
  simp only [bytes, List.length_append, length_words, Bytes.length_littleEndian, words,
    List.length_cons, List.length_nil, blockSize]
  omega

/-- The words in front of a block are read as they are. -/
theorem Block.wordAt_bytes (fits : block.Fits unused) {word index : Nat}
    (there : block.words[index]? = some word) :
    wordAt (block.bytes unused) (4 * index) = word := by
  rw [bytes, List.append_assoc]
  exact wordAt_words (fits.words word (List.mem_of_getElem? there)) there _

theorem Block.wordAt_end (fits : block.Fits unused) :
    wordAt (block.bytes unused) (blockSize - 4) = lastMagic := by
  have length := Block.length_bytes fits
  rw [bytes, List.length_append, Bytes.length_littleEndian] at length
  rw [bytes, wordAt_append (by omega), ← List.append_nil (Bytes.littleEndian 4 lastMagic)]
  exact toNat_word (by decide) []

theorem Block.payload_bytes (fits : block.Fits unused) :
    ((block.bytes unused).drop headerSize).take block.payloadSize = block.payload := by
  have header : (block.words.flatMap (Bytes.littleEndian 4)).length = headerSize := by
    rw [length_words]
    rfl
  rw [bytes, List.append_assoc, ← header, List.drop_left, List.append_assoc, ← fits.payload,
    List.take_left]

/-- A block that stands in a file is read as it is. -/
theorem readBlock_bytes (fits : block.Fits unused) (number : Nat) :
    readBlock number (block.bytes unused) = .ok block := by
  have word {value : Nat} (index : Nat) (there : block.words[index]? = some value) :
      wordAt (block.bytes unused) (4 * index) = value := Block.wordAt_bytes fits there
  have whole : ¬ (block.bytes unused).length < blockSize := by
    rw [Block.length_bytes fits]
    omega
  have marked : ¬ (wordAt (block.bytes unused) 0 ≠ firstMagic ∨
      wordAt (block.bytes unused) 4 ≠ secondMagic ∨
      wordAt (block.bytes unused) (blockSize - 4) ≠ lastMagic) := by
    rw [word 0 rfl, word 1 rfl, Block.wordAt_end fits]
    simp
  have size : wordAt (block.bytes unused) 16 = block.payloadSize := word 4 rfl
  have room : ¬ dataArea < block.payloadSize := by
    have area := fits.area
    omega
  simp only [readBlock, whole, marked, size, room, ↓reduceIte, Block.payload_bytes fits]
  rw [word 2 rfl, word 3 rfl, word 5 rfl, word 6 rfl, word 7 rfl]

/-- Blocks one behind another, each with its bytes behind the payload, are read back in order. -/
theorem read_flatMap_bytes {entries : List (Block × Bytes)}
    (fits : ∀ entry ∈ entries, entry.1.Fits entry.2) :
    read (entries.flatMap fun entry => entry.1.bytes entry.2) = .ok (entries.map Prod.fst) := by
  have cut : chunks blockSize (entries.flatMap fun entry => entry.1.bytes entry.2) =
      entries.map fun entry => entry.1.bytes entry.2 :=
    chunks_flatMap (by decide) fun entry member => Block.length_bytes (fits entry member)
  have each : (entries.map fun entry => entry.1.bytes entry.2).mapIdx readBlock =
      (entries.map Prod.fst).map (Except.ok : Block → Except Uf2Error Block) := by
    rw [List.mapIdx_eq_iff]
    intro index
    rw [List.getElem?_map, List.getElem?_map, List.getElem?_map]
    cases found : entries[index]? with
    | none => rfl
    | some entry =>
      have member := List.mem_of_getElem? found
      simp only [Option.map_some, readBlock_bytes (fits entry member)]
  rw [read, cut, each, mapM_map_ok]

/-- Blocks that all have the same bytes behind the payload. -/
theorem read_blocks {blocks : List Block} (fits : ∀ block ∈ blocks, block.Fits unused) :
    read (blocks.flatMap (·.bytes unused)) = .ok blocks ∧
      (blocks.flatMap (·.bytes unused)).length = 512 * blocks.length := by
  have entries : ∀ entry ∈ blocks.map fun block => (block, unused), entry.1.Fits entry.2 :=
    List.forall_mem_map.mpr fits
  have readable := read_flatMap_bytes entries
  rw [List.flatMap_map, List.map_map] at readable
  constructor
  · rw [readable]
    exact congrArg Except.ok (List.map_id _)
  · exact length_flatMap_of_length fun block member => Block.length_bytes (fits block member)

end MemoryBoard.Uf2
