import Mathlib.Algebra.Ring.Int.Defs
import MemoryBoard.Proofs.Memory.Sections

set_option autoImplicit false

namespace MemoryBoard

variable {accessAt : Nat → Access} {byteAt : Nat → UInt8} {first start stop : Nat} {run : Section}
  {runs others : List Section}

/-- Whether a section ends where the next one begins, and the byte changes there. -/
def Section.Meets (byteAt : Nat → UInt8) (run next : Section) : Prop :=
  ∃ last : Nat, run.last = last ∧ next.start = (last + 1 : Nat) ∧ byteAt last ≠ byteAt (last + 1)

theorem Tiles.sum_counts (tiles : Tiles accessAt first runs stop) :
    (runs.map Section.count).sum = (stop : Int) - first := by
  induction tiles with
  | nil => rw [List.map_nil, List.sum_nil, Int.sub_self]
  | cons start last _ _ _ ih =>
    rw [List.map_cons, List.sum_cons, ih, Section.count, start, last]
    omega

/-- A first section may begin at any of its addresses. -/
theorem Tiles.cut (tiles : Tiles accessAt first (run :: runs) stop) {middle : Nat}
    (above : first ≤ middle) (below : (middle : Int) ≤ run.last) :
    Tiles accessAt middle ({ run with start := middle } :: runs) stop := by
  cases tiles with
  | @cons _ next _ _ _ start last some same tiles =>
    rw [last] at below
    refine .cons rfl last (by omega) (fun address inside => ?_) tiles
    exact same address (by omega)

/-- If the access changes from each section to the next, no list for the same addresses is shorter,
and no other one as short. -/
theorem Tiles.shortest (tiles : Tiles accessAt first runs stop)
    (apart : runs.IsChain (·.access ≠ ·.access)) (again : Tiles accessAt first others stop) :
    runs.length ≤ others.length ∧ (others.length = runs.length → others = runs) := by
  -- What the other list goes through may end inside a section, which is then cut there.
  induction again generalizing runs with
  | nil =>
    cases tiles with
    | nil => exact ⟨Nat.le_refl _, fun _ => rfl⟩
    | cons _ _ some _ tiles =>
      have order := tiles.le
      omega
  | @cons first middle stop other others otherStart otherLast otherSome otherSame otherTiles ih =>
    have otherOrder := otherTiles.le
    cases tiles with
    | nil => omega
    | @cons _ next _ run runs start last some same tiles =>
      have access : run.access = other.access := by
        rw [← same first (Nat.le_refl _) some, ← otherSame first (Nat.le_refl _) otherSome]
      rcases Nat.lt_trichotomy next middle with early | together | late
      · -- The section behind the end would have the same access.
        exfalso
        cases tiles with
        | nil => omega
        | cons _ _ nextSome nextSame _ =>
          apply (List.isChain_cons_cons.mp apart).1
          rw [access, ← nextSame next (Nat.le_refl _) nextSome,
            otherSame next (by omega) early]
      · subst together
        obtain ⟨short, unique⟩ := ih tiles apart.tail
        refine ⟨Nat.succ_le_succ short, fun equal => ?_⟩
        have here : other = run := by
          cases other
          cases run
          simp_all only
        rw [here, unique (Nat.succ.inj equal)]
      · have rest := (Tiles.cons start last some same tiles).cut (Nat.le_of_lt otherSome)
          (show (middle : Int) ≤ run.last by omega)
        have chain : ({ run with start := (middle : Int) } :: runs).IsChain
            (·.access ≠ ·.access) := by
          cases runs with
          | nil => exact .singleton _
          | cons _ _ => exact List.isChain_cons_cons.mpr (List.isChain_cons_cons.mp apart)
        obtain ⟨short, _⟩ := ih rest chain
        rw [List.length_cons] at short
        refine ⟨?_, fun equal => ?_⟩
        · rw [List.length_cons, List.length_cons]
          omega
        · rw [List.length_cons, List.length_cons] at equal
          omega

/-- Bytes with no other bits than the two defined ones are told apart by what they mean. -/
theorem Access.ofByte_inj {byte other : UInt8} (small : byte < 4) (otherSmall : other < 4)
    (same : Access.ofByte byte = Access.ofByte other) : byte = other := by
  have each : ∀ one < 4, ∀ two < 4, Access.ofInt (one : Nat) = Access.ofInt (two : Nat) →
      one = two := by decide
  exact UInt8.toNat_inj.mp (each _ (UInt8.lt_iff_toNat_lt.mp small) _
    (UInt8.lt_iff_toNat_lt.mp otherSmall) same)

/-- Where the byte changes and has no undefined bits, so does the access. -/
theorem Tiles.isChain_access
    (tiles : Tiles (fun address => .ofByte (byteAt address)) first runs stop)
    (defined : ∀ address < stop, byteAt address < 4)
    (changes : runs.IsChain (Section.Meets byteAt)) : runs.IsChain (·.access ≠ ·.access) := by
  induction tiles with
  | nil => exact .nil
  | @cons first next stop run runs start last some same tiles ih =>
    have later := ih defined changes.tail
    cases tiles with
    | nil => exact .singleton run
    | @cons _ following _ after _ _ _ nextSome nextSame tiles =>
      have order := tiles.le
      obtain ⟨meets, _⟩ := List.isChain_cons_cons.mp changes
      refine List.isChain_cons_cons.mpr ⟨fun equal => ?_, later⟩
      obtain ⟨border, ends, _, differ⟩ := meets
      have behind : next = border + 1 := by omega
      subst behind
      apply differ
      apply Access.ofByte_inj (defined _ (by omega)) (defined _ (by omega))
      rw [same border (by omega) (by omega), equal,
        nextSame (border + 1) (Nat.le_refl _) nextSome]

/-- Runs that a change of the byte lies between get sections that it lies between as well. -/
theorem Section.place_meets {pieces : List Bytes} (nonempty : [] ∉ pieces)
    (changes : pieces.IsChain fun piece next =>
      ∃ some nextSome, (piece.getLast some == next.head nextSome) = false)
    (held : ∀ i < pieces.flatten.length, pieces.flatten[i]? = some (byteAt (start + i))) :
    (place [] start pieces).IsChain (Section.Meets byteAt) := by
  induction pieces generalizing start with
  | nil => exact .nil
  | cons piece rest ih =>
    rw [List.mem_cons, not_or] at nonempty
    have behind : ∀ i < rest.flatten.length,
        rest.flatten[i]? = some (byteAt (start + piece.length + i)) := by
      intro i inside
      have byte := held (piece.length + i) (by rw [List.flatten_cons, List.length_append]; omega)
      rw [List.flatten_cons, List.getElem?_append_right (by omega), Nat.add_sub_cancel_left,
        ← Nat.add_assoc] at byte
      exact byte
    have later := ih nonempty.2 changes.tail behind
    rw [place_cons]
    cases rest with
    | nil => exact .singleton _
    | cons next rest =>
      rw [place_cons] at later ⊢
      obtain ⟨⟨some, nextSome, differ⟩, _⟩ := List.isChain_cons_cons.mp changes
      have long := List.length_pos_iff.mpr some
      have nextLong := List.length_pos_iff.mpr nextSome
      refine List.isChain_cons_cons.mpr ⟨⟨start + (piece.length - 1), ?_, ?_, ?_⟩, later⟩
      · simp only
        omega
      · simp only
        omega
      · have ending := held (piece.length - 1)
          (by rw [List.flatten_cons, List.length_append]; omega)
        rw [List.flatten_cons, List.getElem?_append_left (by omega),
          ← List.getLast?_eq_getElem?, List.getLast?_eq_some_getLast some,
          Option.some.injEq] at ending
        have beginning := behind 0 (by rw [List.flatten_cons, List.length_append]; omega)
        rw [List.flatten_cons, List.getElem?_append_left nextLong, ← List.head?_eq_getElem?,
          List.head?_eq_some_head nextSome, Option.some.injEq, Nat.add_zero] at beginning
        have place : start + (piece.length - 1) + 1 = start + piece.length := by omega
        rw [place, ← ending, ← beginning]
        exact ne_of_beq_false differ

namespace Image

theorem sections_meet (image : Image) :
    image.sections.IsChain (Section.Meets image.attributeAt) :=
  Section.place_meets (List.nil_notMem_splitBy _ image.attributes)
    (List.isChain_getLast_head_splitBy _ image.attributes) image.getElem?_flatten_runs

/-- The sections lie one behind the other over the whole address space, each with the access of all
its addresses, and the attribute byte changes where two of them meet. If no attribute byte has
undefined bits so does the access, and every other list that lies over the address space like this
is longer. -/
theorem sections_coarsest (image : Image) :
    let accessAt := fun address => Access.ofByte (image.attributeAt address)
    Tiles accessAt 0 image.sections addressCount ∧
      (image.sections.map Section.count).sum = addressCount ∧
      image.sections.IsChain (Section.Meets image.attributeAt) ∧
      ((∀ address < addressCount, image.attributeAt address < 4) →
        image.sections.IsChain (·.access ≠ ·.access) ∧
          ∀ runs, Tiles accessAt 0 runs addressCount →
            image.sections.length ≤ runs.length ∧
              (runs.length = image.sections.length → runs = image.sections)) := by
  intro accessAt
  have tiles := image.sections_tile
  refine ⟨tiles, ?_, image.sections_meet, fun defined => ?_⟩
  · rw [tiles.sum_counts, Int.natCast_zero, Int.sub_zero]
  · have apart := tiles.isChain_access defined image.sections_meet
    exact ⟨apart, fun runs again => tiles.shortest apart again⟩

/-- A list that lies over the address space, with another access wherever two of its sections meet,
is that of the sections. -/
theorem sections_eq {image : Image} {runs : List Section}
    (defined : ∀ address < addressCount, image.attributeAt address < 4)
    (tiles : Tiles (fun address => .ofByte (image.attributeAt address)) 0 runs addressCount)
    (apart : runs.IsChain (·.access ≠ ·.access)) : image.sections = runs := by
  -- Neither of the two lists is longer than the other.
  have shortest := image.sections_tile.shortest
    (image.sections_tile.isChain_access defined image.sections_meet) tiles
  have long := (tiles.shortest apart image.sections_tile).1
  exact (shortest.2 (Nat.le_antisymm long shortest.1)).symm

/-- A vacant memory, but for its last address, which is enabled and writable. -/
def cornered : Image :=
  (uniform 0 1).storeAttribute 0xffff 2

theorem attributeAt_cornered {address : Nat} (inside : address < addressCount) :
    cornered.attributeAt address = if address = 0xffff then 2 else 1 := by
  rw [cornered, attributeAt_storeAttribute, attributeAt_uniform 0 1 inside]
  rfl

theorem cornered_defined : ∀ address < addressCount, cornered.attributeAt address < 4 := by
  intro address inside
  rw [attributeAt_cornered inside]
  split <;> decide

theorem sections_cornered :
    cornered.sections = [⟨0, 0xfffe, ⟨false, true⟩⟩, ⟨0xffff, 0xffff, ⟨true, false⟩⟩] := by
  have last : Tiles (fun address => .ofByte (cornered.attributeAt address)) 0xffff
      [⟨0xffff, 0xffff, ⟨true, false⟩⟩] addressCount := by
    refine .cons rfl rfl (by decide) (fun address above below => ?_) .nil
    have same : address = 0xffff := by
      unfold addressCount at below
      omega
    rw [attributeAt_cornered below, if_pos same]
    rfl
  refine sections_eq cornered_defined
    (.cons rfl rfl (by decide) (fun address _ below => ?_) last) ?_
  · rw [attributeAt_cornered (by unfold addressCount; omega), if_neg (by omega)]
    rfl
  · exact List.isChain_cons_cons.mpr ⟨by decide, .singleton _⟩

/-- A vacant memory whose last address is enabled and writable has two sections. -/
theorem sections_coarsest_pair :
    let image := (uniform 0 1).storeAttribute 0xffff 2
    let pair : List Section := [⟨0, 0xfffe, ⟨false, true⟩⟩, ⟨0xffff, 0xffff, ⟨true, false⟩⟩]
    (∀ address < addressCount, image.attributeAt address < 4) ∧ image.sections = pair ∧
      ∀ runs, Tiles (fun address => .ofByte (image.attributeAt address)) 0 runs addressCount →
        pair.length ≤ runs.length ∧ (runs.length = pair.length → runs = pair) := by
  intro image pair
  have same : image.sections = pair := sections_cornered
  obtain ⟨_, _, _, coarsest⟩ := sections_coarsest image
  obtain ⟨_, shortest⟩ := coarsest cornered_defined
  rw [same] at shortest
  exact ⟨cornered_defined, same, shortest⟩

end Image

end MemoryBoard
