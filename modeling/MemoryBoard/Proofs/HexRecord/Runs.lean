import Mathlib.Algebra.Ring.Nat
import Mathlib.Data.List.Forall2
import Mathlib.Data.List.SplitBy
import MemoryBoard.Proofs.HexRecord.Accepted
import MemoryBoard.Proofs.HexRecord.Chain

set_option autoImplicit false

/- What an accepted file means. Its records fall into runs, in each of which every record begins
where the one before it ends; the blocks are the longest such runs, and the buffer has at each
address the byte of the last record that covers it. -/
namespace MemoryBoard.HexRecord

/-- Whether a record begins at the address behind another one. -/
def Record.Continues (earlier later : Record) : Prop :=
  later.address = earlier.address + earlier.payload.length

instance (earlier later : Record) : Decidable (earlier.Continues later) :=
  inferInstanceAs (Decidable (_ = _))

/-- Records cut into runs that continue, none of which could be joined with the next. -/
structure MaximalRuns (records : List Record) (runs : List (List Record)) : Prop where
  whole : runs.flatten = records
  nonempty : [] ∉ runs
  joined : ∀ run ∈ runs, run.IsChain Record.Continues
  apart : runs.IsChain fun earlier later =>
    ∀ last ∈ earlier.getLast?, ∀ first ∈ later.head?, ¬ last.Continues first

/-- The block of a run: the address of its first record, and all bytes of its records. -/
structure IsBlockOf (run : List Record) (block : Block) : Prop where
  start : run.head?.map Record.address = some block.start
  count : block.count = (payloads run).length
  hasStart : block.hasStart = true

variable {record first last : Record} {records run tail : List Record}
  {runs : List (List Record)} {block : Block} {blocks older : List Block} {start : Nat}

/-- Records can be cut into such runs, and in one way only. -/
theorem maximalRuns_iff : MaximalRuns records runs ↔
    records.splitBy (fun earlier later => decide (earlier.Continues later)) = runs := by
  have apart (nonempty : [] ∉ runs) : (runs.IsChain fun earlier later => ∃ before behind,
      decide ((earlier.getLast before).Continues (later.head behind)) = false) ↔
        runs.IsChain fun earlier later =>
          ∀ last ∈ earlier.getLast?, ∀ first ∈ later.head?, ¬ last.Continues first := by
    apply List.IsChain.iff_of_mem_imp
    intro earlier later earlierRun laterRun
    have before : earlier ≠ [] := fun empty => nonempty (empty ▸ earlierRun)
    have behind : later ≠ [] := fun empty => nonempty (empty ▸ laterRun)
    simp [List.getLast?_eq_some_getLast before, List.head?_eq_some_head behind, before, behind]
  rw [List.splitBy_eq_iff]
  simp only [decide_eq_true_eq]
  constructor
  · intro ⟨whole, nonempty, joined, separate⟩
    exact ⟨whole.symm, nonempty, joined, (apart nonempty).mpr separate⟩
  · intro ⟨whole, nonempty, joined, separate⟩
    exact ⟨whole.symm, nonempty, joined, (apart nonempty).mp separate⟩

theorem chained_of_isChain (chain : (first :: tail).IsChain Record.Continues) :
    Chained first.address (first :: tail) := by
  refine ⟨rfl, ?_⟩
  induction tail generalizing first with
  | nil => trivial
  | cons next rest ih =>
    obtain ⟨continues, later⟩ := List.isChain_cons_cons.mp chain
    have onward := ih later
    rw [continues] at onward
    exact ⟨continues, onward⟩

/-- A run ends where its last record does. -/
theorem Chained.end_eq (chain : Chained start run) (final : run.getLast? = some last) :
    start + (payloads run).length = last.address + last.payload.length := by
  induction run generalizing start with
  | nil => cases final
  | cons first rest ih =>
    obtain ⟨here, later⟩ := chain
    rw [length_payloads_cons]
    cases rest with
    | nil =>
      rw [List.getLast?_singleton, Option.some.injEq] at final
      rw [← final, here]
      rfl
    | cons next rest =>
      rw [List.getLast?_cons_cons] at final
      rw [← ih later final]
      omega

/-- What comes behind a run does not continue it. -/
theorem MaximalRuns.not_continues (maximal : MaximalRuns records (run :: runs))
    (final : run.getLast? = some last) :
    ∀ next ∈ runs.flatten.head?, ¬ last.Continues next := by
  intro next behind
  cases runs with
  | nil => cases behind
  | cons other rest =>
    cases other with
    | nil => exact absurd (List.mem_cons_of_mem _ List.mem_cons_self) maximal.nonempty
    | cons first tail =>
      have separate := (List.isChain_cons_cons.mp maximal.apart).1
      exact separate last final next behind

theorem MaximalRuns.rest (maximal : MaximalRuns records (run :: runs)) :
    MaximalRuns runs.flatten runs where
  whole := rfl
  nonempty := fun member => maximal.nonempty (List.mem_cons_of_mem _ member)
  joined := fun other member => maximal.joined other (List.mem_cons_of_mem _ member)
  apart := maximal.apart.tail

/-- Reading a run makes one block, where it does not go on with the newest one. -/
theorem extendBlocks_run (chain : Chained first.address (first :: tail))
    (apart : ∀ newest ∈ older.head?, first.address ≠ newest.start + newest.count) :
    (first :: tail).foldl extendBlocks older =
      ⟨first.address, (payloads (first :: tail)).length, true⟩ :: older := by
  have opened : extendBlocks older first =
      ⟨first.address, first.payload.length, true⟩ :: older := by
    cases older with
    | nil => rfl
    | cons newest rest =>
      have different := apart newest rfl
      simp only [extendBlocks, different, ↓reduceIte]
  rw [List.foldl_cons, opened, extendBlocks_chained chain.2, length_payloads_cons]

/-- Reading runs one after another makes a block of each, the newest in front. -/
theorem foldl_extendBlocks_runs (maximal : MaximalRuns records runs)
    (apart : ∀ newest ∈ older.head?, ∀ first ∈ records.head?,
      first.address ≠ newest.start + newest.count) :
    ∃ blocks, records.foldl extendBlocks older = blocks ++ older ∧
      List.Forall₂ IsBlockOf runs blocks.reverse := by
  -- Behind each run its block is one of the older ones, which the next run does not go on with.
  induction runs generalizing records older with
  | nil =>
    rw [← maximal.whole]
    exact ⟨[], rfl, .nil⟩
  | cons run rest ih =>
    cases run with
    | nil => exact absurd List.mem_cons_self maximal.nonempty
    | cons first tail =>
      have chain := chained_of_isChain (maximal.joined _ List.mem_cons_self)
      have whole : records = (first :: tail) ++ rest.flatten := maximal.whole.symm
      let block : Block := ⟨first.address, (payloads (first :: tail)).length, true⟩
      have here : (first :: tail).foldl extendBlocks older = block :: older :=
        extendBlocks_run chain fun newest member => apart newest member first (by rw [whole]; rfl)
      have onward : ∀ newest ∈ (block :: older).head?, ∀ next ∈ rest.flatten.head?,
          next.address ≠ newest.start + newest.count := by
        intro newest member next behind same
        cases member
        have final := List.getLast?_eq_some_getLast (List.cons_ne_nil first tail)
        refine maximal.not_continues final next behind ?_
        rw [Record.Continues, ← chain.end_eq final]
        exact same
      obtain ⟨blocks, made, each⟩ := ih maximal.rest onward
      refine ⟨blocks ++ [block], ?_, ?_⟩
      · rw [whole, List.foldl_append, here, made, List.append_assoc, List.singleton_append]
      · rw [List.reverse_append]
        exact .cons ⟨rfl, rfl, rfl⟩ each

theorem blocksOf_runs (maximal : MaximalRuns records runs) :
    List.Forall₂ IsBlockOf runs (blocksOf records).reverse := by
  have alone : ∀ newest ∈ ([] : List Block).head?, ∀ first ∈ records.head?,
      first.address ≠ newest.start + newest.count := nofun
  obtain ⟨blocks, made, each⟩ := foldl_extendBlocks_runs maximal alone
  rw [List.append_nil] at made
  rw [blocksOf, made]
  exact each

/-- A run has one block. -/
theorem isBlockOf_unique : Relator.RightUnique IsBlockOf := by
  intro run block other one another
  obtain ⟨start, count, hasStart⟩ := block
  obtain ⟨otherStart, otherCount, otherHasStart⟩ := other
  have starts := one.start.symm.trans another.start
  have counts := one.count.trans another.count.symm
  have flags := one.hasStart.trans another.hasStart.symm
  simp_all

theorem sum_counts (each : List.Forall₂ IsBlockOf runs blocks) :
    (blocks.map Block.count).sum = (payloads runs.flatten).length := by
  induction each with
  | nil => rfl
  | cons here _ ih =>
    rw [List.map_cons, List.sum_cons, ih, here.count, List.flatten_cons, payloads, payloads,
      payloads, List.flatMap_append, List.length_append]

/-- What is brought by a file with some records: at each address the byte of the last one that
covers it, and a block for each of the runs into which they fall, the newest in front. -/
structure Brings (records : List Record) (buffer : Array UInt8) (blocks : List Block)
    (after : Array UInt8) : Prop where
  size : after.size = buffer.size
  latest : ∀ address, address < buffer.size →
    after[address]? = (latest? (Record.byteAt? address) records).or buffer[address]?
  runs : ∃ runs, (∀ others, MaximalRuns records others ↔ others = runs) ∧
    List.Forall₂ IsBlockOf runs blocks.reverse
  total : (blocks.map Block.count).sum = (payloads records).length

variable {buffer after : Array UInt8}

theorem brings_read (records : List Record) (buffer : Array UInt8) :
    Brings records buffer (blocksOf records) (placeAll buffer records) where
  size := size_placeAll buffer records
  latest _ inside := getElem?_placeAll buffer records inside
  runs := ⟨_, fun _ => maximalRuns_iff.trans eq_comm, blocksOf_runs (maximalRuns_iff.mpr rfl)⟩
  total := by
    have maximal : MaximalRuns records _ := maximalRuns_iff.mpr rfl
    have sum := sum_counts (blocksOf_runs maximal)
    rw [List.map_reverse, List.sum_reverse_nat, maximal.whole] at sum
    exact sum

/-- Nothing else can be brought by the same records. -/
theorem Brings.unique {otherBlocks : List Block} {other : Array UInt8}
    (one : Brings records buffer blocks after) (another : Brings records buffer otherBlocks other) :
    blocks = otherBlocks ∧ after = other := by
  constructor
  · obtain ⟨runs, unique, each⟩ := one.runs
    obtain ⟨others, otherUnique, otherEach⟩ := another.runs
    have same : others = runs := (unique others).mp ((otherUnique others).mpr rfl)
    rw [same] at otherEach
    exact List.reverse_injective (isBlockOf_unique.forall₂ each otherEach)
  · apply Array.ext_getElem?
    intro address
    by_cases inside : address < buffer.size
    · rw [one.latest address inside, another.latest address inside]
    · have outside := one.size
      have otherOutside := another.size
      rw [Array.getElem?_eq_none (by omega), Array.getElem?_eq_none (by omega)]

/-- What stands behind the terminal line, or is missing at the end, is nothing to an accepted
file. -/
theorem recordsFrom_ending {dialect : Dialect} {capacity before : Nat} {ending : Fault}
    {done : List Record} {lines : List (List Char)} :
    recordsFrom dialect capacity ending before done lines = .ok records ↔
      recordsFrom dialect capacity .unexpectedEnd before done lines = .ok records := by
  induction lines generalizing before done with
  | nil => exact ⟨nofun, nofun⟩
  | cons line rest ih =>
    simp only [recordsFrom]
    cases dialect.readLine capacity before line with
    | error fault => exact Iff.rfl
    | ok found =>
      cases found with
      | terminal => exact Iff.rfl
      | data record => exact ih

theorem records_eq_ok {dialect : Dialect} {capacity : Nat} {source : Text.Source} :
    HexRecord.records dialect capacity source = .ok records ↔
      IsFile capacity dialect (source.lines.map trimLine) records := by
  rw [HexRecord.records, recordsFrom_ending, recordsFrom_eq_ok]

/-- Reading a file comes to what its records bring, and to nothing else. -/
theorem read_eq_ok_iff_brings (dialect : Dialect) (source : Text.Source) (buffer : Array UInt8)
    (blocks : List Block) (after : Array UInt8) :
    read dialect source buffer = (.ok blocks, after) ↔
      ∃ records, IsFile buffer.size dialect (source.lines.map trimLine) records ∧
        Brings records buffer blocks after := by
  simp only [read, ← records_eq_ok]
  cases HexRecord.records dialect buffer.size source with
  | error error => simp
  | ok found =>
    have brings := brings_read found buffer
    constructor
    · intro same
      cases same
      exact ⟨found, rfl, brings⟩
    · intro ⟨records, same, other⟩
      cases same
      obtain ⟨sameBlocks, sameBuffer⟩ := brings.unique other
      simp only [sameBlocks, sameBuffer]

-- A record next to one that is not the last before it begins a block of its own.
example : blocksOf [⟨0x100, [1, 2]⟩, ⟨0x200, [3]⟩, ⟨0x102, [4]⟩] =
    [⟨0x102, 1, true⟩, ⟨0x200, 1, true⟩, ⟨0x100, 2, true⟩] := by
  decide

end MemoryBoard.HexRecord
