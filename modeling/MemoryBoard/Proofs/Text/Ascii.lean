import MemoryBoard.Text.Digits
import MemoryBoard.Text.Utf8

set_option autoImplicit false

namespace MemoryBoard.Text

/-- Whether a character is stored as one byte, which no end of line changes. -/
def IsPlainAscii (c : Char) : Prop :=
  c.toNat < 0x80 ∧ c ≠ '\r'

/-- What can be checked code by code holds of every ASCII character. -/
theorem forall_ascii {p : Char → Prop} (each : ∀ code < 0x80, p (Char.ofNat code)) {c : Char}
    (ascii : c.toNat < 0x80) : p c := by
  have here := each c.toNat ascii
  rwa [Char.ofNat_toNat] at here

/-- Every byte is the code of a character. -/
theorem toNat_ofNat_byte (byte : UInt8) : (Char.ofNat byte.toNat).toNat = byte.toNat := by
  have bound := byte.toNat_lt
  have valid : byte.toNat.isValidChar := Or.inl (by omega)
  rw [Char.ofNat, dif_pos valid]
  rfl

theorem isPlainAscii_of_isHexDigit {c : Char} (digit : isHexDigit c = true) : IsPlainAscii c := by
  have bounded : c ≤ 'f' := by
    simp only [isHexDigit, Bool.or_eq_true, Bool.and_eq_true, decide_eq_true_eq] at digit
    rcases digit with (⟨_, low⟩ | ⟨_, upper⟩) | ⟨_, lower⟩
    · exact Char.le_trans low (by decide)
    · exact Char.le_trans upper (by decide)
    · exact lower
  constructor
  · have value : c.toNat ≤ 'f'.toNat := bounded
    exact Nat.lt_of_le_of_lt value (by decide)
  · rintro rfl
    exact absurd digit (by decide)

theorem utf8EncodeChar_of_ascii {c : Char} (ascii : c.toNat < 0x80) :
    String.utf8EncodeChar c = [UInt8.ofNat c.toNat] := by
  have narrow : c.utf8Size = 1 := by
    rw [Char.utf8Size_eq_one_iff, UInt32.le_iff_toNat_le]
    change c.toNat ≤ 0x7f
    omega
  rw [String.utf8EncodeChar_eq_singleton narrow]
  rfl

theorem decodeUtf8From_encodeUtf8 {text : List Char} (ascii : ∀ c ∈ text, IsPlainAscii c)
    (index : Nat) (done : List Char) :
    decodeUtf8From index done (encodeUtf8 text) = (done.reverse ++ text, none) := by
  induction text generalizing index done with
  | nil =>
    rw [List.append_nil]
    rfl
  | cons c rest ih =>
    have here : c.toNat < 0x80 := (ascii c List.mem_cons_self).1
    have byte : (UInt8.ofNat c.toNat).toNat = c.toNat := by
      rw [UInt8.toNat_ofNat']
      omega
    have later := ih (fun other member => ascii other (List.mem_cons_of_mem c member))
      (index + 1) (c :: done)
    rw [List.reverse_cons, List.append_assoc, List.singleton_append] at later
    rw [← later]
    unfold encodeUtf8
    rw [List.flatMap_cons, utf8EncodeChar_of_ascii here, List.singleton_append,
      decodeUtf8From.eq_def]
    simp only [byte, here, ↓reduceIte, Char.ofNat_toNat]

theorem unifyLineEnds_of_plain {text : List Char} (plain : ∀ c ∈ text, IsPlainAscii c)
    (done : List Char) : unifyLineEnds done text = done.reverse ++ text := by
  induction text generalizing done with
  | nil =>
    rw [List.append_nil]
    rfl
  | cons c rest ih =>
    have here : c ≠ '\r' := (plain c List.mem_cons_self).2
    have later := ih (fun other member => plain other (List.mem_cons_of_mem c member)) (c :: done)
    rw [List.reverse_cons, List.append_assoc, List.singleton_append] at later
    rw [← later]
    rw [unifyLineEnds]
    · intro _ same
      exact absurd same here
    · exact here

theorem Source.ofFile_encodeUtf8 {text : List Char} (plain : ∀ c ∈ text, IsPlainAscii c) :
    Source.ofFile (encodeUtf8 text) = ⟨text, none⟩ := by
  rw [ofFile, decodeUtf8, decodeUtf8From_encodeUtf8 plain, List.reverse_nil, List.nil_append]
  simp only [unifyLineEnds_of_plain plain, List.reverse_nil, List.nil_append]

end MemoryBoard.Text
