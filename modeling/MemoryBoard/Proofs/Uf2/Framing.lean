import MemoryBoard.Proofs.Uf2.Block

set_option autoImplicit false

namespace MemoryBoard.Uf2

/-- As much of a file as one block takes, or what is left of it at the end. -/
def pieceAt (file : Bytes) (index : Nat) : Bytes :=
  (file.drop (512 * index)).take 512

/-- The marks at both ends of a block. -/
structure IsMarked (piece : Bytes) : Prop where
  start : piece.take 8 = [0x55, 0x46, 0x32, 0x0a, 0x57, 0x51, 0x5d, 0x9e]
  ending : piece.drop 508 = [0x30, 0x6f, 0xb1, 0x0a]

/-- How many bytes of payload a block says that it has. -/
def statedSize (piece : Bytes) : Nat :=
  Bytes.toNat ((piece.drop 16).take 4)

/-- Whether a piece of a file is a block. -/
structure IsFramed (piece : Bytes) : Prop where
  whole : piece.length = 512
  marked : IsMarked piece
  room : statedSize piece ≤ 476

/-- What a piece that is no block is rejected for. A short one is not looked into, and the size that
an unmarked one states does not matter. -/
inductive Flaw (piece : Bytes) (index : Nat) : Uf2Error → Prop where
  | truncated : piece.length < 512 → Flaw piece index (.truncated index)
  | badMagic : 512 ≤ piece.length → ¬ IsMarked piece → Flaw piece index (.badMagic index)
  | payloadTooLarge : 512 ≤ piece.length → IsMarked piece → 476 < statedSize piece →
      Flaw piece index (.payloadTooLarge (statedSize piece) index)

/-- Whether a piece is what stands in a file for a block. -/
def Holds (piece : Bytes) (block : Block) : Prop :=
  ∃ unused, block.Fits unused ∧ piece = block.bytes unused

variable {file piece : Bytes} {index offset word count : Nat} {block : Block} {blocks : List Block}
  {error : Uf2Error}

theorem length_word (inside : offset + 4 ≤ piece.length) :
    ((piece.drop offset).take 4).length = 4 := by
  rw [List.length_take, List.length_drop]
  omega

theorem littleEndian_wordAt (inside : offset + 4 ≤ piece.length) :
    Bytes.littleEndian 4 (wordAt piece offset) = (piece.drop offset).take 4 := by
  have back := Bytes.littleEndian_toNat ((piece.drop offset).take 4)
  rw [length_word inside] at back
  exact back

theorem wordAt_lt (inside : offset + 4 ≤ piece.length) : wordAt piece offset < 2 ^ 32 := by
  have bound := Bytes.toNat_lt ((piece.drop offset).take 4)
  rw [length_word inside] at bound
  exact bound

theorem wordAt_eq_iff (inside : offset + 4 ≤ piece.length) (small : word < 2 ^ 32) :
    wordAt piece offset = word ↔ (piece.drop offset).take 4 = Bytes.littleEndian 4 word := by
  constructor
  · intro same
    rw [← same, littleEndian_wordAt inside]
  · intro same
    rw [wordAt, same, Bytes.toNat_littleEndian]
    exact Nat.mod_eq_of_lt small

/-- Words that are read one behind another are the bytes they were read from. -/
theorem flatMap_wordAt (inside : 4 * count ≤ piece.length) :
    ((List.range count).map fun index => wordAt piece (4 * index)).flatMap
      (Bytes.littleEndian 4) = piece.take (4 * count) := by
  induction count with
  | zero => rfl
  | succ count ih =>
    rw [List.range_succ, List.map_append, List.flatMap_append, ih (by omega), Nat.mul_succ,
      List.take_add, List.map_singleton, List.flatMap_singleton,
      littleEndian_wordAt (by omega)]

theorem isMarked_iff (whole : piece.length = 512) : IsMarked piece ↔
    wordAt piece 0 = firstMagic ∧ wordAt piece 4 = secondMagic ∧
      wordAt piece (blockSize - 4) = lastMagic := by
  have start : piece.take (4 + 4) = (piece.drop 0).take 4 ++ (piece.drop 4).take 4 :=
    List.take_add
  have size : blockSize = 512 := rfl
  have last : blockSize - 4 + 4 ≤ piece.length := by omega
  have ending : piece.drop 508 = (piece.drop (blockSize - 4)).take 4 := by
    have rest : (piece.drop 508).length = piece.length - 508 := List.length_drop
    exact (List.take_of_length_le (by omega)).symm
  rw [wordAt_eq_iff (by omega) (by decide), wordAt_eq_iff (by omega) (by decide),
    wordAt_eq_iff last (by decide), ← ending]
  constructor
  · intro ⟨front, back⟩
    have both : (piece.drop 0).take 4 ++ (piece.drop 4).take 4 =
        Bytes.littleEndian 4 firstMagic ++ Bytes.littleEndian 4 secondMagic :=
      start.symm.trans front
    have pair := List.append_inj both (length_word (by omega))
    exact ⟨pair.1, pair.2, back⟩
  · intro ⟨first, second, back⟩
    rw [first, second] at start
    exact ⟨start, back⟩

/-- The block that is read from a piece. -/
def blockIn (piece : Bytes) : Block where
  flags := wordAt piece 8
  target := wordAt piece 12
  payloadSize := wordAt piece 16
  number := wordAt piece 20
  total := wordAt piece 24
  family := wordAt piece 28
  payload := (piece.drop headerSize).take (wordAt piece 16)

/-- What stands behind the payload. -/
def unusedIn (piece : Bytes) : Bytes :=
  ((piece.drop headerSize).drop (wordAt piece 16)).take (dataArea - wordAt piece 16)

theorem words_blockIn (framed : IsFramed piece) :
    (blockIn piece).words = (List.range 8).map fun index => wordAt piece (4 * index) := by
  obtain ⟨first, second, _⟩ := (isMarked_iff framed.whole).mp framed.marked
  rw [Block.words, ← first, ← second]
  rfl

theorem fits_blockIn (framed : IsFramed piece) : (blockIn piece).Fits (unusedIn piece) := by
  have whole := framed.whole
  have room : wordAt piece 16 ≤ 476 := framed.room
  refine ⟨?_, ?_, ?_⟩
  · rw [words_blockIn framed, List.forall_mem_map]
    intro index member
    have bound := List.mem_range.mp member
    exact wordAt_lt (by omega)
  · simp only [blockIn, List.length_take, List.length_drop, whole, headerSize]
    omega
  · simp only [blockIn, unusedIn, List.length_take, List.length_drop, whole, headerSize, dataArea]
    omega

/-- Header, payload, unused bytes and end make up the whole piece. -/
theorem eq_bytes_blockIn (framed : IsFramed piece) :
    piece = (blockIn piece).bytes (unusedIn piece) := by
  have whole := framed.whole
  have room : wordAt piece 16 ≤ dataArea := framed.room
  obtain ⟨_, _, last⟩ := (isMarked_iff whole).mp framed.marked
  have header : (blockIn piece).words.flatMap (Bytes.littleEndian 4) = piece.take headerSize := by
    rw [words_blockIn framed, flatMap_wordAt (by omega)]
    rfl
  have area : (blockIn piece).payload ++ unusedIn piece =
      (piece.drop headerSize).take dataArea := by
    rw [blockIn, unusedIn, ← List.take_add, Nat.add_sub_of_le room]
  have ending : Bytes.littleEndian 4 lastMagic = (piece.drop headerSize).drop dataArea := by
    rw [← last, littleEndian_wordAt (by rw [whole]; decide), List.drop_drop]
    refine List.take_of_length_le ?_
    rw [List.length_drop, whole]
    decide
  rw [Block.bytes, header, area, ending, List.append_assoc, List.take_append_drop,
    List.take_append_drop]

/-- A piece that is a block is read. -/
theorem readBlock_of_framed (framed : IsFramed piece) (index : Nat) :
    readBlock index piece = .ok (blockIn piece) := by
  have read := readBlock_bytes (fits_blockIn framed) index
  rwa [← eq_bytes_blockIn framed] at read

/-- A piece with a flaw is rejected for it. -/
theorem readBlock_of_flaw (short : piece.length ≤ 512) (flaw : Flaw piece index error) :
    readBlock index piece = .error error := by
  unfold readBlock
  cases flaw with
  | truncated little => exact if_pos little
  | badMagic long unmarked =>
    have whole : piece.length = 512 := by omega
    rw [isMarked_iff whole] at unmarked
    rw [if_neg (show ¬ piece.length < blockSize by unfold blockSize; omega), if_pos (by grind)]
  | payloadTooLarge long marked large =>
    have whole : piece.length = 512 := by omega
    obtain ⟨first, second, last⟩ := (isMarked_iff whole).mp marked
    have stated : statedSize piece = wordAt piece 16 := rfl
    rw [if_neg (show ¬ piece.length < blockSize by unfold blockSize; omega), if_neg (by grind)]
    exact if_pos large

theorem isFramed_or_flaw (short : piece.length ≤ 512) (index : Nat) :
    IsFramed piece ∨ ∃ error, Flaw piece index error := by
  by_cases whole : 512 ≤ piece.length
  · by_cases marked : IsMarked piece
    · by_cases room : statedSize piece ≤ 476
      · exact Or.inl ⟨by omega, marked, room⟩
      · exact Or.inr ⟨_, .payloadTooLarge whole marked (by omega)⟩
    · exact Or.inr ⟨_, .badMagic whole marked⟩
  · exact Or.inr ⟨_, .truncated (by omega)⟩

theorem readBlock_eq_error (short : piece.length ≤ 512) :
    readBlock index piece = .error error ↔ Flaw piece index error := by
  constructor
  · intro failed
    rcases isFramed_or_flaw short index with framed | ⟨other, flaw⟩
    · rw [readBlock_of_framed framed] at failed
      cases failed
    · rw [readBlock_of_flaw short flaw] at failed
      cases failed
      exact flaw
  · exact readBlock_of_flaw short

theorem readBlock_eq_ok (short : piece.length ≤ 512) :
    readBlock index piece = .ok block ↔ IsFramed piece ∧ block = blockIn piece := by
  constructor
  · intro read
    rcases isFramed_or_flaw short index with framed | ⟨other, flaw⟩
    · rw [readBlock_of_framed framed] at read
      cases read
      exact ⟨framed, rfl⟩
    · rw [readBlock_of_flaw short flaw] at read
      cases read
  · intro ⟨framed, same⟩
    rw [same]
    exact readBlock_of_framed framed index

/-- The message for a flaw ends with the number of the piece. -/
theorem Flaw.message (flaw : Flaw piece index error) :
    ∃ complaint, error.message = complaint ++ ("block " ++ toString index) := by
  cases flaw with
  | truncated _ =>
    refine ⟨"truncated ", ?_⟩
    rw [← String.append_assoc]
    rfl
  | badMagic _ _ =>
    refine ⟨"bad magic in ", ?_⟩
    rw [← String.append_assoc]
    rfl
  | payloadTooLarge _ _ _ =>
    let size := "payload size " ++ toString (statedSize piece)
    have joined : size ++ " too large in " ++ "block " = size ++ " too large in block " :=
      String.append_assoc
    refine ⟨size ++ " too large in ", ?_⟩
    rw [← String.append_assoc, joined]
    rfl

theorem length_pieceAt (file : Bytes) (index : Nat) :
    (pieceAt file index).length = min 512 (file.length - 512 * index) := by
  rw [pieceAt, List.length_take, List.length_drop]

theorem length_pieceAt_le (file : Bytes) (index : Nat) : (pieceAt file index).length ≤ 512 := by
  rw [length_pieceAt]
  exact Nat.min_le_left _ _

theorem getElem?_pieces (file : Bytes) (index : Nat) :
    (chunks blockSize file)[index]? =
      if 512 * index < file.length then some (pieceAt file index) else none :=
  getElem?_chunks (by decide) file index

theorem getElem?_outcomes (file : Bytes) (index : Nat) :
    ((chunks blockSize file).mapIdx readBlock)[index]? =
      if 512 * index < file.length then some (readBlock index (pieceAt file index)) else none := by
  rw [List.getElem?_mapIdx, getElem?_pieces]
  split
  · rfl
  · rfl

/-- A file is rejected for its first piece that is no block. -/
theorem read_eq_error : read file = .error error ↔
    ∃ index, 512 * index < file.length ∧ (∀ before < index, IsFramed (pieceAt file before)) ∧
      Flaw (pieceAt file index) index error := by
  rw [read, mapM_id_eq_error]
  constructor
  · rintro ⟨index, there, earlier⟩
    rw [getElem?_outcomes] at there
    by_cases inside : 512 * index < file.length
    · rw [if_pos inside, Option.some.injEq] at there
      refine ⟨index, inside, fun before bound => ?_,
        (readBlock_eq_error (length_pieceAt_le file index)).mp there⟩
      obtain ⟨block, here⟩ := earlier before bound
      rw [getElem?_outcomes, if_pos (by omega), Option.some.injEq] at here
      exact ((readBlock_eq_ok (length_pieceAt_le file before)).mp here).1
    · rw [if_neg inside] at there
      cases there
  · rintro ⟨index, inside, framed, flaw⟩
    refine ⟨index, ?_, fun before bound => ⟨blockIn (pieceAt file before), ?_⟩⟩
    · rw [getElem?_outcomes, if_pos inside,
        (readBlock_eq_error (length_pieceAt_le file index)).mpr flaw]
    · rw [getElem?_outcomes, if_pos (by omega), readBlock_of_framed (framed before bound)]

/-- A file is accepted if all its pieces are blocks, and brings one for each in order. -/
theorem read_eq_ok : read file = .ok blocks ↔
    (∀ index, 512 * index < file.length → IsFramed (pieceAt file index)) ∧
      blocks = (chunks blockSize file).map blockIn := by
  rw [read, mapM_id_eq_ok]
  constructor
  · intro outcomes
    have each (index : Nat) := congrArg (·[index]?) outcomes
    simp only [getElem?_outcomes, List.getElem?_map] at each
    have present (index : Nat) (inside : 512 * index < file.length) :
        IsFramed (pieceAt file index) ∧
          blocks[index]? = some (blockIn (pieceAt file index)) := by
      have here := each index
      rw [if_pos inside] at here
      obtain ⟨block, found, same⟩ := Option.map_eq_some_iff.mp here.symm
      obtain ⟨framed, rfl⟩ := (readBlock_eq_ok (length_pieceAt_le file index)).mp same.symm
      exact ⟨framed, found⟩
    refine ⟨fun index inside => (present index inside).1, ?_⟩
    apply List.ext_getElem?
    intro index
    rw [List.getElem?_map, getElem?_pieces]
    by_cases inside : 512 * index < file.length
    · rw [if_pos inside, (present index inside).2]
      rfl
    · have nothing := each index
      rw [if_neg inside] at nothing ⊢
      exact Option.map_eq_none_iff.mp nothing.symm
  · rintro ⟨framed, same⟩
    rw [same, List.map_map]
    apply List.ext_getElem?
    intro index
    rw [getElem?_outcomes, List.getElem?_map, getElem?_pieces]
    split
    · rename_i inside
      rw [readBlock_of_framed (framed index inside)]
      rfl
    · rfl

/-- All pieces that a file has are blocks just if it is made of whole ones. -/
theorem framed_iff : (∀ index, 512 * index < file.length → IsFramed (pieceAt file index)) ↔
    file.length % 512 = 0 ∧ ∀ index < file.length / 512, IsFramed (pieceAt file index) := by
  constructor
  · intro framed
    refine ⟨?_, fun index bound => framed index (by omega)⟩
    by_cases whole : file.length % 512 = 0
    · exact whole
    · -- The last piece is too short.
      have last := (framed (file.length / 512) (by omega)).whole
      rw [length_pieceAt] at last
      omega
  · intro ⟨whole, framed⟩ index inside
    exact framed index (by omega)

theorem holds_of_framed (framed : IsFramed piece) : Holds piece (blockIn piece) :=
  ⟨unusedIn piece, fits_blockIn framed, eq_bytes_blockIn framed⟩

theorem forall_mem_pieces {property : Bytes → Prop} :
    (∀ index, 512 * index < file.length → property (pieceAt file index)) →
      ∀ piece ∈ chunks blockSize file, property piece := by
  intro each piece member
  obtain ⟨index, found⟩ := List.mem_iff_getElem?.mp member
  rw [getElem?_pieces] at found
  split at found
  · rename_i inside
    cases found
    exact each index inside
  · cases found

/-- An accepted file is put together from the blocks that it brings and the bytes that they leave
unused. -/
theorem exists_entries (success : read file = .ok blocks) :
    ∃ entries : List (Block × Bytes), (∀ entry ∈ entries, entry.1.Fits entry.2) ∧
      file = (entries.flatMap fun entry => entry.1.bytes entry.2) ∧
      blocks = entries.map Prod.fst := by
  obtain ⟨each, same⟩ := read_eq_ok.mp success
  have framed : ∀ piece ∈ chunks blockSize file, IsFramed piece := forall_mem_pieces each
  refine ⟨(chunks blockSize file).map fun piece => (blockIn piece, unusedIn piece), ?_, ?_, ?_⟩
  · exact List.forall_mem_map.mpr fun piece member => fits_blockIn (framed piece member)
  · have pieces : (chunks blockSize file).map id =
        (chunks blockSize file).map fun piece => (blockIn piece).bytes (unusedIn piece) :=
      List.map_congr_left fun piece member => eq_bytes_blockIn (framed piece member)
    rw [List.flatMap_map, List.flatMap_def, ← pieces, List.map_id, flatten_chunks (by decide)]
  · rw [List.map_map, same]
    rfl

/-- The files that are read are those of whole blocks between their marks that state no more payload
than they have room for. Each brings its blocks in order, whatever their words and unused bytes are.
Any other file is rejected, and the message names the first piece that is no block. -/
theorem read_framed (file : Bytes) :
    ((∃ blocks, read file = .ok blocks) ↔
      file.length % 512 = 0 ∧ ∀ index < file.length / 512, IsFramed (pieceAt file index)) ∧
    (∀ blocks, read file = .ok blocks →
      blocks.length = file.length / 512 ∧
        ∀ index block, blocks[index]? = some block → Holds (pieceAt file index) block) ∧
    (∀ blocks, read file = .ok blocks ↔
      ∃ entries : List (Block × Bytes), (∀ entry ∈ entries, entry.1.Fits entry.2) ∧
        file = (entries.flatMap fun entry => entry.1.bytes entry.2) ∧
        blocks = entries.map Prod.fst) ∧
    ∀ error, read file = .error error ↔
      ∃ index, 512 * index < file.length ∧ (∀ before < index, IsFramed (pieceAt file before)) ∧
        Flaw (pieceAt file index) index error ∧
        ∃ complaint, error.message = complaint ++ ("block " ++ toString index) := by
  refine ⟨?_, fun blocks success => ?_, fun blocks => ⟨exists_entries, ?_⟩, fun error => ?_⟩
  · rw [← framed_iff]
    constructor
    · rintro ⟨blocks, success⟩
      exact (read_eq_ok.mp success).1
    · intro framed
      exact ⟨_, read_eq_ok.mpr ⟨framed, rfl⟩⟩
  · obtain ⟨framed, same⟩ := read_eq_ok.mp success
    have whole := (framed_iff.mp framed).1
    constructor
    · rw [same, List.length_map, length_chunks (by decide), blockSize]
      omega
    · intro index block found
      rw [same, List.getElem?_map, getElem?_pieces] at found
      by_cases inside : 512 * index < file.length
      · rw [if_pos inside, Option.map_some, Option.some.injEq] at found
        rw [← found]
        exact holds_of_framed (framed index inside)
      · rw [if_neg inside] at found
        cases found
  · rintro ⟨entries, fits, whole, same⟩
    rw [whole, same]
    exact read_flatMap_bytes fits
  · rw [read_eq_error]
    constructor
    · rintro ⟨index, inside, framed, flaw⟩
      exact ⟨index, inside, framed, flaw, flaw.message⟩
    · rintro ⟨index, inside, framed, flaw, _⟩
      exact ⟨index, inside, framed, flaw⟩

end MemoryBoard.Uf2
