import Mathlib.Logic.Function.Basic
import MemoryBoard.Proofs.Image

set_option autoImplicit false

/- The image as two arrays of their own, one of data bytes and one of attribute bytes. No run of
operations tells the two from the image, which holds their bytes in turn. -/
namespace MemoryBoard

/-- What is asked of an image. -/
inductive Operation where
  | storeData (address value : Int)
  | storeAttribute (address value : Int)
  | fill (value access : Int)
  | fillData (start last value : Int)
  | setAttributes (start count access : Int)
  | writeData (start : Int) (payload : Bytes)
  | writeCells (start : Int) (payload : Bytes)
  | loadData (address : Int)
  | loadAttribute (address : Int)
  | readData (start count : Int)
  | readCells (start count : Int)
deriving DecidableEq, Repr

inductive Answer where
  | done
  | byte (byte : UInt8)
  | bytes (bytes : Bytes)
deriving DecidableEq, Repr

abbrev Reply := Except ImageError Answer

namespace Operation

/-- Whether a range leaves the address space. -/
def Leaves (start count : Int) : Prop :=
  start < 0 ∨ count < 0 ∨ 0x10000 < start + count

instance (start count : Int) : Decidable (Leaves start count) :=
  inferInstanceAs (Decidable (_ ∨ _ ∨ _))

/-- Whether an operation is one to be refused. -/
def IsBad : Operation → Prop
  | fillData start last _ => Leaves start (last - start + 1)
  | setAttributes start count _ => Leaves start count
  | writeData start payload => Leaves start payload.length
  | writeCells start payload => payload.length % 2 = 1 ∨ Leaves start (payload.length / 2 : Nat)
  | readData start count => Leaves start count
  | readCells start count => Leaves start count
  | _ => False

def writesData : Operation → Bool
  | storeData _ _ | fill _ _ | fillData _ _ _ | writeData _ _ | writeCells _ _ => true
  | _ => false

def writesAttributes : Operation → Bool
  | storeAttribute _ _ | fill _ _ | setAttributes _ _ _ | writeCells _ _ => true
  | _ => false

/-- Whether an operation writes attribute bytes as they are given. -/
def writesCells : Operation → Bool
  | writeCells _ _ => true
  | _ => false

end Operation

/-- Where operations lead one after another, and what each of them answers. -/
def runAll {σ : Type} (apply : σ → Operation → σ × Reply) (state : σ) :
    List Operation → σ × List Reply
  | [] => (state, [])
  | operation :: rest =>
    let (next, reply) := apply state operation
    let (final, replies) := runAll apply next rest
    (final, reply :: replies)

namespace Image

/-- The image that an operation leaves: where it is refused, the one before. -/
def settle (image : Image) : Except ImageError Image → Image × Reply
  | .ok next => (next, .ok .done)
  | .error error => (image, .error error)

def apply (image : Image) : Operation → Image × Reply
  | .storeData address value => (image.storeData address value, .ok .done)
  | .storeAttribute address value => (image.storeAttribute address value, .ok .done)
  | .fill value access => (uniform value access, .ok .done)
  | .fillData start last value => image.settle (image.fillData start last value)
  | .setAttributes start count access => image.settle (image.setAttributes start count access)
  | .writeData start payload => image.settle (image.writeData start payload)
  | .writeCells start payload => image.settle (image.writeCells start payload)
  | .loadData address => (image, .ok (.byte (image.loadData address)))
  | .loadAttribute address => (image, .ok (.byte (image.loadAttribute address)))
  | .readData start count => (image, (image.readData start count).map .bytes)
  | .readCells start count => (image, (image.readCells start count).map .bytes)

end Image

/-- One byte for each address. -/
abbrev Plane := Fin addressCount → UInt8

namespace Plane

/-- An address modulo the address space. -/
def cell (address : Int) : Fin addressCount :=
  ⟨(address % 0x10000).toNat, by unfold addressCount; omega⟩

/-- The plane with bytes over those from `start` on. -/
def overlay (plane : Plane) (start : Nat) (bytes : Bytes) : Plane :=
  fun i => if start ≤ i.val then bytes[i.val - start]?.getD (plane i) else plane i

/-- The bytes of `count` addresses from `start` on. -/
def part (plane : Plane) (start count : Nat) : Bytes :=
  ((List.ofFn plane).drop start).take count

end Plane

@[ext]
structure Planes where
  data : Plane
  attributes : Plane

namespace Planes

/-- The low eight bits of a number. -/
def low (value : Int) : UInt8 :=
  UInt8.ofInt value

/-- The two lowest bits of a number. -/
def lowest (value : Int) : UInt8 :=
  UInt8.ofInt value &&& 3

/-- The bytes of two lists in turn. -/
def interleave : Bytes → Bytes → Bytes
  | first :: firsts, second :: seconds => first :: second :: interleave firsts seconds
  | _, _ => []

/-- The bytes of both arrays in turn. -/
def toBytes (planes : Planes) : Bytes :=
  interleave (List.ofFn planes.data) (List.ofFn planes.attributes)

def overData (planes : Planes) (start : Nat) (bytes : Bytes) : Planes :=
  { planes with data := planes.data.overlay start bytes }

def overAttributes (planes : Planes) (start : Nat) (bytes : Bytes) : Planes :=
  { planes with attributes := planes.attributes.overlay start bytes }

/-- What an operation on a range comes to. Where the range leaves the address space it is refused,
and nothing changes. -/
def inRange (planes : Planes) (start count : Int) (result : Planes × Answer) : Planes × Reply :=
  if Operation.Leaves start count then (planes, .error (.outside start count))
  else (result.1, .ok result.2)

def apply (planes : Planes) : Operation → Planes × Reply
  | .storeData address value =>
    ({ planes with data := Function.update planes.data (Plane.cell address) (low value) },
      .ok .done)
  | .storeAttribute address value =>
    let attributes := Function.update planes.attributes (Plane.cell address) (lowest value)
    ({ planes with attributes }, .ok .done)
  | .fill value access => (⟨fun _ => low value, fun _ => lowest access⟩, .ok .done)
  | .fillData start last value =>
    planes.inRange start (last - start + 1)
      (planes.overData start.toNat (List.replicate (last - start + 1).toNat (low value)), .done)
  | .setAttributes start count access =>
    planes.inRange start count
      (planes.overAttributes start.toNat (List.replicate count.toNat (lowest access)), .done)
  | .writeData start payload =>
    planes.inRange start payload.length (planes.overData start.toNat payload, .done)
  | .writeCells start payload =>
    if payload.length % 2 = 1 then (planes, .error .oddCells)
    else planes.inRange start (payload.length / 2 : Nat)
      ((planes.overData start.toNat payload.evens).overAttributes start.toNat payload.odds, .done)
  | .loadData address => (planes, .ok (.byte (planes.data (Plane.cell address))))
  | .loadAttribute address => (planes, .ok (.byte (planes.attributes (Plane.cell address))))
  | .readData start count =>
    planes.inRange start count (planes, .bytes (planes.data.part start.toNat count.toNat))
  | .readCells start count =>
    planes.inRange start count (planes, .bytes (interleave
      (planes.data.part start.toNat count.toNat) (planes.attributes.part start.toNat count.toNat)))

variable {planes : Planes} {start count : Int} {result : Planes × Answer} {operation : Operation}

theorem inRange_fails_iff :
    (∃ error, (planes.inRange start count result).2 = .error error) ↔
      Operation.Leaves start count := by
  unfold inRange
  split <;> simp_all

theorem inRange_of_leaves (leaves : Operation.Leaves start count) :
    (planes.inRange start count result).1 = planes := by
  rw [inRange, if_pos leaves]

theorem apply_fails_iff : (∃ error, (planes.apply operation).2 = .error error) ↔
    operation.IsBad := by
  cases operation with
  | writeCells start payload =>
    by_cases odd : payload.length % 2 = 1
    · simp only [apply, Operation.IsBad, odd, ↓reduceIte, true_or, iff_true]
      exact ⟨_, rfl⟩
    · simp only [apply, Operation.IsBad, odd, ↓reduceIte, false_or, inRange_fails_iff]
  | fillData | setAttributes | writeData | readData | readCells => exact inRange_fails_iff
  | _ => simp [apply, Operation.IsBad]

/-- A refused operation changes nothing. -/
theorem apply_of_isBad (bad : operation.IsBad) : (planes.apply operation).1 = planes := by
  cases operation with
  | writeCells start payload =>
    rw [apply]
    split
    · rfl
    · rename_i even
      exact inRange_of_leaves (bad.resolve_left even)
  | fillData | setAttributes | writeData | readData | readCells => exact inRange_of_leaves bad
  | _ => cases bad

theorem attributes_inRange (same : result.1.attributes = planes.attributes) :
    (planes.inRange start count result).1.attributes = planes.attributes := by
  unfold inRange
  split
  · rfl
  · exact same

theorem data_inRange (same : result.1.data = planes.data) :
    (planes.inRange start count result).1.data = planes.data := by
  unfold inRange
  split
  · rfl
  · exact same

theorem attributes_apply (kept : operation.writesAttributes = false) :
    (planes.apply operation).1.attributes = planes.attributes := by
  cases operation with
  | fillData | writeData | readData | readCells =>
    rw [apply]
    exact attributes_inRange rfl
  | storeData | loadData | loadAttribute => rfl
  | _ => cases kept

theorem data_apply (kept : operation.writesData = false) :
    (planes.apply operation).1.data = planes.data := by
  cases operation with
  | setAttributes | readData | readCells =>
    rw [apply]
    exact data_inRange rfl
  | storeAttribute | loadData | loadAttribute => rfl
  | _ => cases kept

theorem lowest_lt (value : Int) : lowest value < 4 := by
  rw [UInt8.lt_iff_toNat_lt]
  exact Nat.lt_succ_of_le Nat.and_le_right

theorem overlay_lt {plane : Plane} {first : Nat} {bytes : Bytes} (below : ∀ i, plane i < 4)
    (given : ∀ byte ∈ bytes, byte < 4) (i : Fin addressCount) :
    plane.overlay first bytes i < 4 := by
  unfold Plane.overlay
  split
  · cases here : bytes[i.val - first]? with
    | none => exact below i
    | some byte => exact given byte (List.mem_of_getElem? here)
  · exact below i

/-- Only an operation that brings attribute bytes of its own can set any other bits. -/
theorem attributes_lt_apply (below : ∀ i, planes.attributes i < 4)
    (masked : operation.writesCells = false) (i : Fin addressCount) :
    (planes.apply operation).1.attributes i < 4 := by
  cases operation with
  | storeAttribute address value =>
    simp only [apply, Function.update_apply]
    split
    · exact lowest_lt value
    · exact below i
  | fill value access => exact lowest_lt access
  | setAttributes start count access =>
    rw [apply, inRange]
    split
    · exact below i
    · refine overlay_lt below (fun byte member => ?_) i
      rw [List.eq_of_mem_replicate member]
      exact lowest_lt access
  | writeCells => cases masked
  | _ =>
    rw [attributes_apply rfl]
    exact below i

end Planes

namespace Image

open Operation

def planes (image : Image) : Planes where
  data := fun i => image.dataAt i
  attributes := fun i => image.attributeAt i

theorem data_planes (image : Image) (i : Fin addressCount) :
    image.planes.data i = image.dataAt i := rfl

theorem attributes_planes (image : Image) (i : Fin addressCount) :
    image.planes.attributes i = image.attributeAt i := rfl

variable {image next : Image} {planes : Planes} {start count : Int}

theorem planes_eq (data : ∀ i, image.dataAt i.val = planes.data i)
    (attributes : ∀ i, image.attributeAt i.val = planes.attributes i) : image.planes = planes :=
  Planes.ext (funext data) (funext attributes)

theorem not_leaves_iff : ¬ Leaves start count ↔ Covers start count := by
  unfold Leaves Covers addressCount
  omega

theorem low_eq (value : Int) : Planes.low value = dataByte value := rfl

theorem lowest_eq (value : Int) : Planes.lowest value = attributeByte value := by
  apply UInt8.toNat_inj.mp
  have mask := Nat.and_two_pow_sub_one_eq_mod (value % 256).toNat 2
  change (value % 256).toNat &&& 3 = _ at mask
  have whole : (UInt8.ofNat (value % 256).toNat).toNat = (value % 256).toNat := by
    rw [UInt8.toNat_ofNat']
    omega
  change (UInt8.ofNat (value % 256).toNat).toNat &&& 3 = _
  rw [whole, mask, attributeByte, UInt8.toNat_ofNat']
  omega

theorem cell_eq (address : Int) : (Plane.cell address).val = wrap address := rfl

/-- Whether what an image comes to is what the two arrays come to. -/
def Matches (result : Image × Reply) (model : Planes × Reply) : Prop :=
  result.2 = model.2 ∧ result.1.planes = model.1

theorem matches_storeData (image : Image) (address value : Int) :
    Matches (image.apply (.storeData address value))
      (image.planes.apply (.storeData address value)) := by
  refine ⟨rfl, planes_eq (fun i => ?_) fun i => attributeAt_storeData image address value i⟩
  rw [apply, dataAt_storeData, ← cell_eq, Planes.apply]
  simp only [Function.update_apply, Fin.ext_iff, low_eq]
  rfl

theorem matches_storeAttribute (image : Image) (address value : Int) :
    Matches (image.apply (.storeAttribute address value))
      (image.planes.apply (.storeAttribute address value)) := by
  refine ⟨rfl, planes_eq (fun i => dataAt_storeAttribute image address value i) fun i => ?_⟩
  rw [apply, attributeAt_storeAttribute, ← cell_eq, Planes.apply]
  simp only [Function.update_apply, Fin.ext_iff, lowest_eq]
  rfl

theorem matches_fill (image : Image) (value access : Int) :
    Matches (image.apply (.fill value access)) (image.planes.apply (.fill value access)) := by
  refine ⟨rfl, planes_eq (fun i => ?_) fun i => ?_⟩
  · exact dataAt_uniform value access i.isLt
  · rw [apply, attributeAt_uniform value access i.isLt]
    exact (lowest_eq access).symm

/-- A write to a range matches if it is refused where the range leaves the address space, and
elsewhere leaves the same bytes. -/
theorem matches_settle {outcome : Except ImageError Image} {result : Planes}
    (refused : ¬ Covers start count → outcome = .error (.outside start count))
    (accepted : Covers start count → ∃ next, outcome = .ok next)
    (same : ∀ next, outcome = .ok next → next.planes = result) :
    Matches (image.settle outcome) (image.planes.inRange start count (result, .done)) := by
  by_cases leaves : Leaves start count
  · rw [refused fun covers => not_leaves_iff.mpr covers leaves]
    simp only [Planes.inRange, leaves, ↓reduceIte, settle]
    exact ⟨rfl, rfl⟩
  · obtain ⟨next, success⟩ := accepted (not_leaves_iff.mp leaves)
    simp only [success, Planes.inRange, leaves, ↓reduceIte, settle]
    exact ⟨rfl, same next success⟩

theorem matches_writeData (image : Image) (start : Int) (payload : Bytes) :
    Matches (image.apply (.writeData start payload))
      (image.planes.apply (.writeData start payload)) := by
  refine matches_settle (fun outside => if_neg outside) writeData_isOk.mpr fun next written => ?_
  obtain ⟨⟨above, _, _⟩, _⟩ := writeData_eq_ok.mp written
  refine planes_eq (fun i => ?_) fun i => attributeAt_writeData written i
  rw [dataAt_writeData written]
  simp only [Planes.overData, Plane.overlay, Image.planes]
  grind

theorem matches_fillData (image : Image) (start last value : Int) :
    Matches (image.apply (.fillData start last value))
      (image.planes.apply (.fillData start last value)) := by
  refine matches_settle (fun outside => if_neg outside) fillData_isOk.mpr fun next written => ?_
  obtain ⟨⟨above, _, _⟩, _⟩ := fillData_eq_ok.mp written
  refine planes_eq (fun i => ?_) fun i => attributeAt_fillData written i
  rw [dataAt_fillData written]
  simp only [Planes.overData, Plane.overlay, Image.planes, low_eq]
  grind

theorem matches_setAttributes (image : Image) (start count access : Int) :
    Matches (image.apply (.setAttributes start count access))
      (image.planes.apply (.setAttributes start count access)) := by
  refine matches_settle (fun outside => if_neg outside) setAttributes_isOk.mpr
    fun next written => ?_
  obtain ⟨⟨above, _, _⟩, _⟩ := setAttributes_eq_ok.mp written
  refine planes_eq (fun i => dataAt_setAttributes written i) fun i => ?_
  rw [attributeAt_setAttributes written]
  simp only [Planes.overAttributes, Plane.overlay, Image.planes, lowest_eq]
  grind

theorem matches_writeCells (image : Image) (start : Int) (payload : Bytes) :
    Matches (image.apply (.writeCells start payload))
      (image.planes.apply (.writeCells start payload)) := by
  by_cases odd : payload.length % 2 = 1
  · have refused : image.writeCells start payload = .error .oddCells := by
      rw [writeCells, if_pos (by omega)]
    simp only [apply, Planes.apply, refused, settle, odd, ↓reduceIte]
    exact ⟨rfl, rfl⟩
  have even : payload.length % 2 = 0 := by omega
  simp only [apply, Planes.apply, odd, ↓reduceIte]
  refine matches_settle (fun outside => ?_) (fun covers => writeCells_isOk.mpr ⟨even, covers⟩)
    fun next written => ?_
  · rw [writeCells, if_neg (by omega), if_neg outside]
  obtain ⟨_, ⟨above, _, _⟩, _⟩ := writeCells_eq_ok.mp written
  refine planes_eq (fun i => ?_) fun i => ?_
  · rw [dataAt_writeCells written]
    simp only [Planes.overAttributes, Planes.overData, Plane.overlay, Image.planes,
      Bytes.getElem?_evens]
    grind
  · rw [attributeAt_writeCells written]
    simp only [Planes.overAttributes, Planes.overData, Plane.overlay, Image.planes,
      (Bytes.getElem?_evens_odds payload _).2]
    grind

theorem part_eq {first size : Nat} (byteAt : Nat → UInt8) (room : first + size ≤ addressCount) :
    Plane.part (fun i => byteAt i) first size =
      (List.range size).map fun offset => byteAt (first + offset) := by
  refine eq_map_range ?_ fun i inside => ?_
  · rw [Plane.part, List.length_take, List.length_drop, List.length_ofFn]
    omega
  · have bound : first + i < addressCount := by omega
    rw [Plane.part, List.getElem?_take, if_pos inside, List.getElem?_drop, List.getElem?_ofFn]
    simp only [bound, ↓reduceDIte]

/-- A read of a range matches if it is refused where the range leaves the address space, and
elsewhere gives the same bytes. -/
theorem matches_read {outcome : Except ImageError Bytes} {bytes : Bytes}
    (refused : ¬ Covers start count → outcome = .error (.outside start count))
    (accepted : Covers start count → outcome = .ok bytes) :
    Matches (image, outcome.map .bytes)
      (image.planes.inRange start count (image.planes, .bytes bytes)) := by
  by_cases leaves : Leaves start count
  · rw [refused fun covers => not_leaves_iff.mpr covers leaves]
    simp only [Planes.inRange, leaves, ↓reduceIte]
    exact ⟨rfl, rfl⟩
  · rw [accepted (not_leaves_iff.mp leaves)]
    simp only [Planes.inRange, leaves, ↓reduceIte]
    exact ⟨rfl, rfl⟩

theorem room_of_covers (covers : Covers start count) :
    start.toNat + count.toNat ≤ addressCount := by
  obtain ⟨_, _, _⟩ := covers
  omega

theorem matches_readData (image : Image) (start count : Int) :
    Matches (image.apply (.readData start count)) (image.planes.apply (.readData start count)) := by
  refine matches_read (fun outside => if_neg outside) fun covers => ?_
  rw [readData, if_pos covers, Image.planes, part_eq _ (room_of_covers covers)]

theorem interleave_evens_odds (bytes : Bytes) (even : bytes.length % 2 = 0) :
    Planes.interleave bytes.evens bytes.odds = bytes := by
  match bytes, even with
  | [], _ => rfl
  | first :: second :: rest, even =>
    have fewer : rest.length % 2 = 0 := by
      simp only [List.length_cons] at even
      omega
    simp only [Bytes.evens_cons, Bytes.odds_cons, Planes.interleave,
      interleave_evens_odds rest fewer]

theorem readCells_eq_interleave (image : Image) (covers : Covers start count) :
    image.readCells start count = .ok (Planes.interleave
      (image.planes.data.part start.toNat count.toNat)
      (image.planes.attributes.part start.toNat count.toNat)) := by
  obtain ⟨cells, read⟩ : ∃ cells, image.readCells start count = .ok cells := by
    rw [readCells, if_pos covers]
    exact ⟨_, rfl⟩
  obtain ⟨_, length, _⟩ := readCells_eq_ok read
  have room := room_of_covers covers
  rw [Image.planes, part_eq _ room, part_eq _ room, ← evens_readCells read,
    ← odds_readCells read, interleave_evens_odds cells (by omega), read]

theorem matches_readCells (image : Image) (start count : Int) :
    Matches (image.apply (.readCells start count)) (image.planes.apply (.readCells start count)) :=
  matches_read (fun outside => if_neg outside) (readCells_eq_interleave image)

theorem matches_apply (image : Image) (operation : Operation) :
    Matches (image.apply operation) (image.planes.apply operation) := by
  cases operation with
  | storeData address value => exact matches_storeData image address value
  | storeAttribute address value => exact matches_storeAttribute image address value
  | fill value access => exact matches_fill image value access
  | fillData start last value => exact matches_fillData image start last value
  | setAttributes start count access => exact matches_setAttributes image start count access
  | writeData start payload => exact matches_writeData image start payload
  | writeCells start payload => exact matches_writeCells image start payload
  | loadData address =>
    refine ⟨?_, rfl⟩
    simp only [apply, Planes.apply, loadData, Image.planes, cell_eq]
  | loadAttribute address =>
    refine ⟨?_, rfl⟩
    simp only [apply, Planes.apply, loadAttribute, Image.planes, cell_eq]
  | readData start count => exact matches_readData image start count
  | readCells start count => exact matches_readCells image start count

theorem matches_runAll (image : Image) (operations : List Operation) :
    (runAll apply image operations).2 = (runAll Planes.apply image.planes operations).2 ∧
      (runAll apply image operations).1.planes =
        (runAll Planes.apply image.planes operations).1 := by
  -- The arrays go along with the image, so the rest of the run starts from equal states again.
  induction operations generalizing image with
  | nil => exact ⟨rfl, rfl⟩
  | cons operation rest ih =>
    obtain ⟨reply, next⟩ := matches_apply image operation
    obtain ⟨replies, final⟩ := ih (image.apply operation).1
    rw [next] at replies final
    simp only [runAll, reply, replies, final, and_self]

theorem part_whole (plane : Plane) : plane.part 0 addressCount = List.ofFn plane := by
  rw [Plane.part, List.drop_zero, List.take_of_length_le (Nat.le_of_eq List.length_ofFn)]

/-- The image holds the bytes of both arrays in turn. -/
theorem toBytes_planes (image : Image) : image.planes.toBytes = image.toBytes := by
  have all : Covers 0 addressCount := by
    unfold Covers
    omega
  have read := readCells_eq_interleave image all
  have size := image.size_cells
  unfold imageSize at size
  rw [readCells, if_pos all, Int.toNat_zero, Int.toNat_natCast, Nat.mul_zero, Nat.zero_add,
    ← size, Array.extract_size, part_whole, part_whole] at read
  exact (Except.ok.inj read).symm

/-- Images with the same two arrays are the same. -/
theorem eq_of_planes_eq {first second : Image} (same : first.planes = second.planes) :
    first = second := by
  refine ext_at fun i inside => ⟨?_, ?_⟩
  · exact congrFun (congrArg Planes.data same) ⟨i, inside⟩
  · exact congrFun (congrArg Planes.attributes same) ⟨i, inside⟩

/-- What an operation may do to an image. -/
structure Obeys (image : Image) (operation : Operation) : Prop where
  refused_iff : (∃ error, (image.apply operation).2 = .error error) ↔ operation.IsBad
  unchanged : operation.IsBad → (image.apply operation).1 = image
  attributes_kept : operation.writesAttributes = false →
    ∀ address : Fin addressCount,
      (image.apply operation).1.attributeAt address = image.attributeAt address
  data_kept : operation.writesData = false →
    ∀ address : Fin addressCount, (image.apply operation).1.dataAt address = image.dataAt address

theorem obeys (image : Image) (operation : Operation) : image.Obeys operation := by
  obtain ⟨reply, next⟩ := matches_apply image operation
  constructor
  · rw [reply]
    exact Planes.apply_fails_iff
  · intro bad
    apply eq_of_planes_eq
    rw [next, Planes.apply_of_isBad bad]
  · intro kept address
    rw [← attributes_planes, next, Planes.attributes_apply kept, attributes_planes]
  · intro kept address
    rw [← data_planes, next, Planes.data_apply kept, data_planes]

theorem attributeAt_zero (address : Nat) : zero.attributeAt address = 0 := by
  rw [attributeAt, zero, Array.getElem?_replicate]
  split <;> rfl

theorem attributes_lt_runAll {planes : Planes} {operations : List Operation}
    (below : ∀ i, planes.attributes i < 4)
    (masked : ∀ operation ∈ operations, operation.writesCells = false) (i : Fin addressCount) :
    (runAll Planes.apply planes operations).1.attributes i < 4 := by
  induction operations generalizing planes with
  | nil => exact below i
  | cons operation rest ih =>
    obtain ⟨first, others⟩ := List.forall_mem_cons.mp masked
    exact ih (Planes.attributes_lt_apply below first) others

/-- No run of operations tells an image from the two arrays of its bytes. Whatever image it leads
to, ranges are refused there only where they leave the address space, and no operation on the one
kind of bytes touches the other. From the empty image only cells that are brought whole can set
more than two bits of an attribute. -/
theorem image_refines_planes (image : Image) (operations : List Operation) :
    let ran := runAll apply image operations
    let model := runAll Planes.apply image.planes operations
    ran.2 = model.2 ∧ image.toBytes = image.planes.toBytes ∧ ran.1.toBytes = model.1.toBytes ∧
      ran.1.toBytes.length = 131072 ∧ (∀ operation, ran.1.Obeys operation) ∧
      ((∀ operation ∈ operations, operation.writesCells = false) →
        ∀ address : Fin addressCount,
          (runAll apply zero operations).1.attributeAt address < 4) := by
  obtain ⟨replies, final⟩ := matches_runAll image operations
  refine ⟨replies, (toBytes_planes image).symm, ?_, ?_, obeys _, fun masked address => ?_⟩
  · rw [← final, toBytes_planes]
  · rw [toBytes, Array.length_toList, size_cells]
    rfl
  · have empty (i : Fin addressCount) : zero.planes.attributes i < 4 := by
      rw [attributes_planes, attributeAt_zero]
      decide
    have kept := attributes_lt_runAll empty masked address
    rw [← (matches_runAll zero operations).2] at kept
    exact kept

end Image

end MemoryBoard
