import Mathlib.Data.List.SplitBy
import MemoryBoard.Memory.Section
import MemoryBoard.Memory.View

set_option autoImplicit false

namespace MemoryBoard

/-- Sections one behind the other from `first` on up to `stop`, each over some addresses with the
access that it has. -/
inductive Tiles (accessAt : Nat → Access) : Nat → List Section → Nat → Prop where
  | nil {first : Nat} : Tiles accessAt first [] first
  | cons {first next stop : Nat} {run : Section} {runs : List Section} :
      run.start = first → run.last = (next : Int) - 1 → first < next →
      (∀ address, first ≤ address → address < next → accessAt address = run.access) →
      Tiles accessAt next runs stop → Tiles accessAt first (run :: runs) stop

theorem Tiles.le {accessAt : Nat → Access} {first stop : Nat} {runs : List Section}
    (tiles : Tiles accessAt first runs stop) : first ≤ stop := by
  induction tiles with
  | nil => exact Nat.le_refl _
  | cons _ _ some _ _ ih => omega

namespace Section

theorem place_eq_append (done : List Section) (start : Nat) (runs : List Bytes) :
    place done start runs = done.reverse ++ place [] start runs := by
  induction runs generalizing done start with
  | nil => rw [place, place, List.reverse_nil, List.append_nil]
  | cons run rest ih =>
    rw [place, ih, place, ih [_]]
    simp only [List.reverse_cons, List.reverse_nil, List.nil_append, List.append_assoc]

theorem place_cons (start : Nat) (run : Bytes) (rest : List Bytes) :
    place [] start (run :: rest) =
      ⟨start, ((start + run.length : Nat) : Int) - 1, .ofByte (run.headD 0)⟩ ::
        place [] (start + run.length) rest := by
  rw [place, place_eq_append]
  rfl

/-- Runs of equal bytes get sections that tile the addresses of their bytes. -/
theorem place_tiles {byteAt : Nat → UInt8} {start : Nat} {runs : List Bytes}
    (nonempty : [] ∉ runs) (uniform : ∀ run ∈ runs, ∀ byte ∈ run, byte = run.headD 0)
    (held : ∀ i < runs.flatten.length, runs.flatten[i]? = some (byteAt (start + i))) :
    Tiles (fun address => .ofByte (byteAt address)) start (place [] start runs)
      (start + runs.flatten.length) := by
  induction runs generalizing start with
  | nil => exact .nil
  | cons run rest ih =>
    obtain ⟨here, later⟩ := List.forall_mem_cons.mp uniform
    rw [List.mem_cons, not_or] at nonempty
    have some : 0 < run.length := by
      rw [List.length_pos_iff]
      exact fun empty => nonempty.1 empty.symm
    rw [List.flatten_cons, List.length_append] at held ⊢
    rw [place_cons, ← Nat.add_assoc]
    refine .cons rfl rfl (by omega) (fun address above below => ?_) (ih nonempty.2 later ?_)
    · have inside : address - start < run.length := by omega
      have byte := held (address - start) (by omega)
      rw [List.getElem?_append_left inside, List.getElem?_eq_getElem inside, Option.some.injEq,
        Nat.add_sub_cancel' above] at byte
      rw [← byte, here _ (List.getElem_mem inside)]
    · intro i inside
      have byte := held (run.length + i) (by omega)
      rw [List.getElem?_append_right (by omega), Nat.add_sub_cancel_left, ← Nat.add_assoc] at byte
      exact byte

end Section

namespace Image

theorem length_attributes (image : Image) : image.attributes.length = addressCount := by
  rw [attributes, List.length_map, List.length_range]

theorem attributes_congr {first second : Image}
    (same : ∀ address < addressCount, first.attributeAt address = second.attributeAt address) :
    first.attributes = second.attributes := by
  rw [attributes, attributes]
  apply List.map_congr_left
  intro address member
  exact same address (List.mem_range.mp member)

/-- Images with the same attributes have the same sections. -/
theorem sections_congr {first second : Image}
    (same : ∀ address < addressCount, first.attributeAt address = second.attributeAt address) :
    first.sections = second.sections := by
  rw [sections, sections, attributes_congr same]

/-- A run of equal bytes has its first byte everywhere. -/
theorem eq_headD_of_mem_splitBy {bytes run : Bytes} (member : run ∈ bytes.splitBy (· == ·)) :
    ∀ byte ∈ run, byte = run.headD 0 := by
  have chain := List.isChain_of_mem_splitBy member
  simp only [beq_iff_eq] at chain
  cases run with
  | nil => nofun
  | cons first rest =>
    have same := (List.pairwise_cons.mp (List.isChain_iff_pairwise.mp chain)).1
    exact List.forall_mem_cons.mpr ⟨rfl, fun byte inside => (same byte inside).symm⟩

/-- The runs hold the attribute of every address at its place. -/
theorem getElem?_flatten_runs (image : Image) :
    ∀ i < (image.attributes.splitBy (· == ·)).flatten.length,
      (image.attributes.splitBy (· == ·)).flatten[i]? = some (image.attributeAt (0 + i)) := by
  intro i inside
  rw [List.flatten_splitBy, length_attributes] at inside
  rw [List.flatten_splitBy, attributes, List.getElem?_map, List.getElem?_range inside,
    Option.map_some, Nat.zero_add]

theorem sections_tile (image : Image) :
    Tiles (fun address => .ofByte (image.attributeAt address)) 0 image.sections addressCount := by
  have tiles := Section.place_tiles (List.nil_notMem_splitBy _ image.attributes)
    (fun run member => eq_headD_of_mem_splitBy member) image.getElem?_flatten_runs
  rw [List.flatten_splitBy, length_attributes, Nat.zero_add] at tiles
  exact tiles

end Image

end MemoryBoard
