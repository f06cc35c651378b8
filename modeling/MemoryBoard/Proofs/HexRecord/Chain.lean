import MemoryBoard.HexRecord.Reader
import MemoryBoard.Memory.View

set_option autoImplicit false

namespace MemoryBoard

namespace Image

theorem writeConsecutive_append (cells : Array UInt8) (index : Nat) (front back : Bytes) :
    writeConsecutive (writeConsecutive cells index front) (index + front.length) back =
      writeConsecutive cells index (front ++ back) := by
  induction front generalizing cells index with
  | nil => rfl
  | cons byte rest ih =>
    have shift : index + (byte :: rest).length = index + 1 + rest.length := by
      rw [List.length_cons]
      omega
    rw [writeConsecutive, shift, ih, List.cons_append, writeConsecutive]

end Image

namespace HexRecord

/-- Each record begins where the one before it ends, the first one at `start`. -/
def Chained : Nat → List Record → Prop
  | _, [] => True
  | start, record :: rest => record.address = start ∧ Chained (start + record.payload.length) rest

/-- The bytes of some records in order. -/
def payloads (records : List Record) : Bytes :=
  records.flatMap Record.payload

theorem payloads_cons (record : Record) (rest : List Record) :
    payloads (record :: rest) = record.payload ++ payloads rest := rfl

theorem length_payloads_cons (record : Record) (rest : List Record) :
    (payloads (record :: rest)).length = record.payload.length + (payloads rest).length := by
  rw [payloads_cons, List.length_append]

/-- A record of a chain lies inside the run that the chain covers. -/
theorem Chained.bounds {start : Nat} {records : List Record} (chain : Chained start records)
    {record : Record} (member : record ∈ records) :
    start ≤ record.address ∧
      record.address + record.payload.length ≤ start + (payloads records).length := by
  induction records generalizing start with
  | nil => cases member
  | cons first rest ih =>
    obtain ⟨here, later⟩ := chain
    have total := length_payloads_cons first rest
    rcases List.mem_cons.mp member with same | behind
    · rw [same, here]
      omega
    · have inside := ih later behind
      omega

theorem extendBlocks_chained {start count : Nat} {older : List Block} {records : List Record}
    (chain : Chained (start + count) records) :
    records.foldl extendBlocks (⟨start, count, true⟩ :: older) =
      ⟨start, count + (payloads records).length, true⟩ :: older := by
  induction records generalizing count with
  | nil => rfl
  | cons record rest ih =>
    obtain ⟨here, later⟩ := chain
    have step : extendBlocks (⟨start, count, true⟩ :: older) record =
        ⟨start, count + record.payload.length, true⟩ :: older := by
      simp only [extendBlocks, here, ↓reduceIte]
    rw [List.foldl_cons, step, ih (by rw [← Nat.add_assoc]; exact later), length_payloads_cons,
      Nat.add_assoc]

theorem blocksOf_chained {start : Nat} {records : List Record} (chain : Chained start records) :
    blocksOf records =
      if records = [] then [] else [⟨start, (payloads records).length, true⟩] := by
  cases records with
  | nil => rfl
  | cons record rest =>
    obtain ⟨here, later⟩ := chain
    have first : extendBlocks [] record = [⟨start, record.payload.length, true⟩] := by
      rw [extendBlocks, here]
    rw [blocksOf, List.foldl_cons, first, extendBlocks_chained later, length_payloads_cons]
    rfl

theorem placeAll_chained {start : Nat} {records : List Record} (chain : Chained start records)
    (buffer : Array UInt8) :
    placeAll buffer records = Image.writeConsecutive buffer start (payloads records) := by
  induction records generalizing start buffer with
  | nil => rfl
  | cons record rest ih =>
    obtain ⟨here, later⟩ := chain
    have step : placeAll buffer (record :: rest) =
        placeAll (Image.writeConsecutive buffer record.address record.payload) rest := rfl
    rw [step, ih later, here, Image.writeConsecutive_append, payloads_cons]

end HexRecord

end MemoryBoard
