import MemoryBoard.Memory.View
import MemoryBoard.Proofs.HexRecord.Acceptance
import MemoryBoard.Proofs.Latest

set_option autoImplicit false

namespace MemoryBoard

/-- Whether an address is one of the block's. -/
def Block.Covers (block : Block) (address : Nat) : Prop :=
  block.start ≤ address ∧ address < block.start + block.count

namespace HexRecord

/-- Whether a record of a read file holds bytes, all of them below `capacity`. -/
def Record.Placed (capacity : Nat) (record : Record) : Prop :=
  record.payload ≠ [] ∧ record.address + record.payload.length ≤ capacity

theorem Dialect.readLine_placed {dialect : Dialect} {capacity before : Nat} {line : List Char}
    {record : Record} (read : dialect.readLine capacity before line = .ok (.data record)) :
    record.Placed capacity := by
  obtain ⟨_, _, _, _, _, _, spelled, _⟩ := isDataLine_iff.mp (readLine_eq_data.mp read)
  exact ⟨List.length_pos_iff.mp spelled.nonempty, spelled.inside⟩

theorem recordsFrom_placed {dialect : Dialect} {capacity before : Nat} {ending : Fault}
    {done records : List Record} {lines : List (List Char)}
    (earlier : ∀ record ∈ done, record.Placed capacity)
    (read : recordsFrom dialect capacity ending before done lines = .ok records) :
    ∀ record ∈ records, record.Placed capacity := by
  induction lines generalizing before done with
  | nil => cases read
  | cons line rest ih =>
    rw [recordsFrom] at read
    split at read
    · cases read
    · cases read
      intro record member
      exact earlier record (List.mem_reverse.mp member)
    · rename_i record found
      refine ih ?_ read
      intro other member
      rcases List.mem_cons.mp member with same | old
      · rw [same]
        exact Dialect.readLine_placed found
      · exact earlier other old

theorem records_placed {dialect : Dialect} {capacity : Nat} {source : Text.Source}
    {found : List Record} (read : records dialect capacity source = .ok found) :
    ∀ record ∈ found, record.Placed capacity :=
  recordsFrom_placed (fun _ member => by cases member) read

/-- The byte that a record gives to an address. -/
def Record.byteAt? (address : Nat) (record : Record) : Option UInt8 :=
  if record.address ≤ address then record.payload[address - record.address]? else none

theorem Record.byteAt?_isSome_iff {address : Nat} {record : Record} :
    (record.byteAt? address).isSome ↔
      record.address ≤ address ∧ address < record.address + record.payload.length := by
  unfold byteAt?
  by_cases above : record.address ≤ address
  · simp only [above, ↓reduceIte, true_and, isSome_getElem?]
    omega
  · simp only [above, ↓reduceIte, Option.isSome_none, Bool.false_eq_true, false_and]

theorem size_placeAll (buffer : Array UInt8) (records : List Record) :
    (placeAll buffer records).size = buffer.size := by
  induction records generalizing buffer with
  | nil => rfl
  | cons record rest ih =>
    have step : placeAll buffer (record :: rest) =
        placeAll (Image.writeConsecutive buffer record.address record.payload) rest := rfl
    rw [step, ih, Image.size_writeConsecutive]

/-- Each address holds the byte of the last record that covers it, or what it held before. -/
theorem getElem?_placeAll (buffer : Array UInt8) (records : List Record) {i : Nat}
    (inside : i < buffer.size) :
    (placeAll buffer records)[i]? = (latest? (Record.byteAt? i) records).or buffer[i]? := by
  induction records generalizing buffer with
  | nil => rfl
  | cons record rest ih =>
    have step : placeAll buffer (record :: rest) =
        placeAll (Image.writeConsecutive buffer record.address record.payload) rest := rfl
    have here : (Image.writeConsecutive buffer record.address record.payload)[i]? =
        (record.byteAt? i).or buffer[i]? := by
      rw [Image.getElem?_writeConsecutive, Record.byteAt?]
      by_cases covered : record.address ≤ i ∧ i < record.address + record.payload.length
      · have offset : i - record.address < record.payload.length := by omega
        have present := List.getElem?_eq_getElem offset
        simp only [covered, inside, and_self, ↓reduceIte, present, Option.some_or]
      · have uncovered : ¬ (record.address ≤ i ∧
            i < record.address + record.payload.length ∧ i < buffer.size) := by omega
        simp only [uncovered, ↓reduceIte]
        by_cases above : record.address ≤ i
        · rw [List.getElem?_eq_none (by omega)]
          simp only [above, ↓reduceIte, Option.none_or]
        · simp only [above, ↓reduceIte, Option.none_or]
    rw [step, ih _ (by rw [Image.size_writeConsecutive]; exact inside), here, latest?_cons,
      Option.or_assoc]

/-- What holds of every block of a read file. -/
structure SoundBlock (capacity : Nat) (block : Block) : Prop where
  hasStart : block.hasStart = true
  nonempty : 0 < block.count
  inside : block.start + block.count ≤ capacity

theorem extendBlocks_sound {capacity : Nat} {blocks : List Block} {record : Record}
    (sound : ∀ block ∈ blocks, SoundBlock capacity block) (placed : record.Placed capacity) :
    ∀ block ∈ extendBlocks blocks record, SoundBlock capacity block := by
  have present : 0 < record.payload.length := List.length_pos_iff.mpr placed.1
  have room := placed.2
  have alone : SoundBlock capacity ⟨record.address, record.payload.length, true⟩ :=
    ⟨rfl, present, room⟩
  intro block member
  cases blocks with
  | nil =>
    rw [List.mem_singleton.mp member]
    exact alone
  | cons newest older =>
    rw [extendBlocks] at member
    split at member
    · rename_i joined
      rcases List.mem_cons.mp member with grown | old
      · have before := sound newest List.mem_cons_self
        rw [grown]
        refine ⟨before.hasStart, ?_, ?_⟩
        · simp only
          omega
        · simp only
          omega
      · exact sound block (List.mem_cons_of_mem newest old)
    · rcases List.mem_cons.mp member with opened | old
      · rw [opened]
        exact alone
      · exact sound block old

theorem extendBlocks_covers {blocks : List Block} {record : Record} {address : Nat} :
    (∃ block ∈ extendBlocks blocks record, block.Covers address) ↔
      (∃ block ∈ blocks, block.Covers address) ∨ (record.byteAt? address).isSome := by
  rw [Record.byteAt?_isSome_iff]
  cases blocks with
  | nil => simp [extendBlocks, Block.Covers]
  | cons newest older =>
    rw [extendBlocks]
    split
    · rename_i joined
      simp only [List.mem_cons, exists_eq_or_imp, Block.Covers, joined]
      constructor
      · rintro (grown | old)
        · by_cases first : address < newest.start + newest.count
          · exact Or.inl (Or.inl ⟨grown.1, first⟩)
          · exact Or.inr ⟨by omega, by omega⟩
        · exact Or.inl (Or.inr old)
      · rintro ((first | old) | added)
        · exact Or.inl ⟨first.1, by omega⟩
        · exact Or.inr old
        · exact Or.inl ⟨by omega, by omega⟩
    · simp only [List.mem_cons, exists_eq_or_imp, Block.Covers]
      exact or_comm

theorem foldl_extendBlocks {capacity : Nat} {records : List Record} {blocks : List Block}
    (sound : ∀ block ∈ blocks, SoundBlock capacity block)
    (placed : ∀ record ∈ records, record.Placed capacity) :
    (∀ block ∈ records.foldl extendBlocks blocks, SoundBlock capacity block) ∧
      ∀ address, (∃ block ∈ records.foldl extendBlocks blocks, block.Covers address) ↔
        (∃ block ∈ blocks, block.Covers address) ∨
          ∃ record ∈ records, (record.byteAt? address).isSome := by
  induction records generalizing blocks with
  | nil => simpa using sound
  | cons record rest ih =>
    have later := ih (extendBlocks_sound sound (placed record List.mem_cons_self))
      (fun other member => placed other (List.mem_cons_of_mem record member))
    refine ⟨later.1, fun address => ?_⟩
    rw [List.foldl_cons, later.2, extendBlocks_covers, or_assoc]
    simp only [List.mem_cons, exists_eq_or_imp]

theorem blocksOf_sound {capacity : Nat} {records : List Record}
    (placed : ∀ record ∈ records, record.Placed capacity) :
    ∀ block ∈ blocksOf records, SoundBlock capacity block :=
  (foldl_extendBlocks (fun _ member => by cases member) placed).1

/-- The blocks cover the addresses that some record gives a byte to. -/
theorem blocksOf_covers {capacity : Nat} {records : List Record}
    (placed : ∀ record ∈ records, record.Placed capacity) (address : Nat) :
    (∃ block ∈ blocksOf records, block.Covers address) ↔
      (latest? (Record.byteAt? address) records).isSome := by
  have none : ∀ block ∈ ([] : List Block), SoundBlock capacity block := fun _ member => by
    cases member
  rw [blocksOf, (foldl_extendBlocks none placed).2 address]
  constructor
  · rintro (⟨_, nothing, _⟩ | ⟨record, member, gives⟩)
    · cases nothing
    · apply Option.isSome_iff_ne_none.mpr
      intro none
      rw [(latest?_eq_none_iff _).mp none record member] at gives
      cases gives
  · intro given
    obtain ⟨byte, latest⟩ := Option.isSome_iff_exists.mp given
    obtain ⟨record, member, gives⟩ := exists_of_latest?_eq_some _ latest
    exact Or.inr ⟨record, member, Option.isSome_iff_exists.mpr ⟨byte, gives⟩⟩

end HexRecord

end MemoryBoard
