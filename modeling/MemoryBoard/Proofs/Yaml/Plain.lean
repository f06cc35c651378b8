import Mathlib.Tactic.MkIffOfInductiveProp
import MemoryBoard.Proofs.Except
import MemoryBoard.Yaml.TokenStream

set_option autoImplicit false

namespace MemoryBoard.Yaml

/-- Printable characters in ASCII that have no meaning of their own. -/
def isLetter (c : Char) : Bool :=
  0x20 < c.toNat && c.toNat ≤ 0x7e && !Scanner.isIndicator c && c != '.'

theorem beq_of_isLetter {c other : Char} (letter : isLetter c = true)
    (special : isLetter other = false) : (c == other) = false := by
  rw [beq_eq_false_iff_ne]
  rintro rfl
  rw [letter] at special
  contradiction

theorem isBlankOrEnd_of_isLetter {c : Char} (letter : isLetter c = true) :
    isBlankOrEnd c = false := by
  have differs (other : Char) := @beq_of_isLetter c other letter
  simp only [isBlankOrEnd, isSpaceOrEnd, isBreakOrEnd, isBreak, differs '\t' rfl, differs ' ' rfl,
    differs endMark rfl, differs '\n' rfl, differs '\r' rfl, differs '\u0085' rfl,
    differs '\u2028' rfl, differs '\u2029' rfl, Bool.or_self]

theorem isBreak_of_isLetter {c : Char} (letter : isLetter c = true) : isBreak c = false := by
  have plain := isBlankOrEnd_of_isLetter letter
  simp only [isBlankOrEnd, isSpaceOrEnd, isBreakOrEnd, Bool.or_eq_false_iff] at plain
  exact plain.2.2.2

theorem isIndicator_of_isLetter {c : Char} (letter : isLetter c = true) :
    Scanner.isIndicator c = false := by
  simp only [isLetter, Bool.and_eq_true, Bool.not_eq_true'] at letter
  exact letter.1.2

namespace Reader

variable {cursor : Cursor}

theorem run_need (whole : cursor.ending = none) (count : Nat) :
    (need count).run cursor = .ok ((), cursor) := by
  cases cursor
  cases whole
  rfl

theorem run_peek (whole : cursor.ending = none) (distance : Nat) :
    (peek distance).run cursor = .ok (cursor.rest.getD distance endMark, cursor) := by
  cases cursor
  cases whole
  rfl

theorem run_ahead (whole : cursor.ending = none) (count : Nat) :
    (ahead count).run cursor = .ok (cursor.rest.take count, cursor) := by
  cases cursor
  cases whole
  rfl

theorem run_advance (whole : cursor.ending = none) (count : Nat) :
    (advance count).run cursor = .ok ((), cursor.stepMany count) := by
  cases cursor
  cases whole
  rfl

theorem run_takeRun (whole : cursor.ending = none) (p : Char → Bool) :
    (takeRun p).run cursor =
      .ok (cursor.rest.takeWhile p, cursor.stepMany (cursor.rest.takeWhile p).length) := by
  cases cursor
  cases whole
  rfl

/-- Whether a line separates documents can be told without moving. -/
theorem exists_run_atSeparator (whole : cursor.ending = none) :
    ∃ separates, atSeparator.run cursor = .ok (separates, cursor) := by
  rw [atSeparator, run_bind_of_run (run_ahead whole 3)]
  split
  · rw [run_bind_of_run (run_peek whole 3)]
    exact ⟨_, rfl⟩
  · exact ⟨false, rfl⟩

end Reader

/-- A text with nothing in it that has a meaning of its own. -/
@[mk_iff isWord_iff]
structure IsWord (word : List Char) : Prop where
  nonempty : word ≠ []
  letters : ∀ c ∈ word, isLetter c = true

/-- Whether neither a blank nor a comment nor the end of a line comes next. -/
def IsBare (rest : List Char) : Prop :=
  let c := rest.getD 0 endMark
  (c == ' ') = false ∧ (c == '#') = false ∧ isBreak c = false

variable {word rest : List Char} {size index line column : Nat}

theorem IsWord.isLetter_first (valid : IsWord word) :
    isLetter ((word ++ rest).getD 0 endMark) = true := by
  obtain ⟨nonempty, letters⟩ := valid
  cases word with
  | nil => contradiction
  | cons c word => exact letters c List.mem_cons_self

theorem IsWord.isBare (valid : IsWord word) : IsBare (word ++ rest) := by
  have letter := @IsWord.isLetter_first word rest valid
  exact ⟨beq_of_isLetter letter rfl, beq_of_isLetter letter rfl, isBreak_of_isLetter letter⟩

theorem stepMany_word (letters : ∀ c ∈ word, isLetter c = true) :
    Cursor.stepMany word.length ⟨word ++ rest, none, size, index, line, column⟩ =
      ⟨rest, none, size, index + word.length, line, column + word.length⟩ := by
  induction word generalizing index column with
  | nil => rfl
  | cons c word ih =>
    obtain ⟨letter, letters⟩ := List.forall_mem_cons.mp letters
    have step : Cursor.step ⟨c :: (word ++ rest), none, size, index, line, column⟩ =
        ⟨word ++ rest, none, size, index + 1, line, column + 1⟩ := by
      simp only [Cursor.step, isBreak_of_isLetter letter, beq_of_isLetter letter
        (show isLetter '\ufeff' = false from rfl), Bool.false_and, Bool.false_eq_true, ↓reduceIte]
    rw [List.length_cons, Cursor.stepMany, List.cons_append, step, ih letters]
    simp only [Nat.add_assoc, Nat.add_comm 1]

theorem takeWhile_bare (bare : IsBare rest) : rest.takeWhile (· == ' ') = [] := by
  cases rest with
  | nil => rfl
  | cons c rest =>
    have filled : (c == ' ') = false := bare.1
    rw [List.takeWhile_cons, filled, if_neg Bool.false_ne_true]

/-- A single space is passed over. -/
theorem run_skipSpaces_space (bare : IsBare rest) :
    Reader.skipSpaces.run ⟨' ' :: rest, none, size, index, line, column⟩ =
      .ok ((), ⟨rest, none, size, index + 1, line, column + 1⟩) := by
  have taken := @Reader.run_takeRun ⟨' ' :: rest, none, size, index, line, column⟩ rfl (· == ' ')
  have blank : (' ' :: rest).takeWhile (· == ' ') = [' '] := by
    rw [List.takeWhile_cons_of_pos rfl, takeWhile_bare bare]
  rw [blank] at taken
  exact run_discard_of_run taken

section

variable {cursor : Cursor}

theorem run_skipSpaces_bare (whole : cursor.ending = none) (bare : IsBare cursor.rest) :
    Reader.skipSpaces.run cursor = .ok ((), cursor) := by
  have taken := Reader.run_takeRun whole (· == ' ')
  rw [takeWhile_bare bare] at taken
  exact run_discard_of_run taken

theorem run_skipComment_bare (whole : cursor.ending = none) (bare : IsBare cursor.rest) :
    Reader.skipComment.run cursor = .ok ((), cursor) := by
  rw [Reader.skipComment, run_bind_of_run (Reader.run_peek whole 0), bare.2.1,
    if_neg Bool.false_ne_true]
  rfl

theorem run_lineBreak_bare (whole : cursor.ending = none) (bare : IsBare cursor.rest) :
    Reader.lineBreak.run cursor = .ok (none, cursor) := by
  obtain ⟨_, _, unbroken⟩ := bare
  have parts := unbroken
  simp only [isBreak, Bool.or_eq_false_iff] at parts
  obtain ⟨⟨_, line⟩, paragraph⟩ := parts
  rw [Reader.lineBreak, run_bind_of_run (Reader.run_peek whole 0)]
  simp only [line, paragraph, unbroken, Bool.or_self, Bool.false_eq_true, ↓reduceIte]
  rfl

end

/-- A key and its value that need no quotes, the key short enough to be one. -/
structure IsEntry (entry : String × String) : Prop where
  key : IsWord entry.1.toList
  short : entry.1.toList.length ≤ 1024
  text : IsWord entry.2.toList

/-- The line of a mapping for an entry. -/
def entryText (entry : String × String) : List Char :=
  entry.1.toList ++ ':' :: ' ' :: (entry.2.toList ++ ['\n'])

/-- A document with one mapping. -/
def documentText (entries : List (String × String)) : List Char :=
  '-' :: '-' :: '-' :: '\n' :: entries.flatMap entryText

variable {entry : String × String} {entries : List (String × String)}
  {documents : List (List (String × String))}

theorem entryText_append : entryText entry ++ rest =
    entry.1.toList ++ ':' :: ' ' :: (entry.2.toList ++ '\n' :: rest) := by
  simp only [entryText, List.append_assoc, List.cons_append, List.nil_append]

theorem IsEntry.isBare (valid : IsEntry entry) : IsBare (entryText entry ++ rest) := by
  rw [entryText_append]
  exact valid.key.isBare

theorem IsEntry.unmarked (valid : IsEntry entry) :
    ((entryText entry ++ rest).getD 0 endMark == '\ufeff') = false := by
  rw [entryText_append]
  exact beq_of_isLetter valid.key.isLetter_first rfl

theorem isBare_entries (valid : ∀ entry ∈ entries, IsEntry entry) (bare : IsBare rest) :
    IsBare (entries.flatMap entryText ++ rest) := by
  cases entries with
  | nil => exact bare
  | cons entry entries =>
    rw [List.flatMap_cons, List.append_assoc]
    exact (valid entry List.mem_cons_self).isBare

theorem isBare_documents : IsBare (documents.flatMap documentText) := by
  cases documents with
  | nil => exact ⟨rfl, rfl, rfl⟩
  | cons entries documents => exact ⟨rfl, rfl, rfl⟩

theorem length_entries : 3 * entries.length ≤ (entries.flatMap entryText).length := by
  induction entries with
  | nil => exact Nat.le_refl _
  | cons entry entries ih =>
    rw [List.flatMap_cons, List.length_append, entryText]
    simp only [List.length_cons, List.length_append, List.length_nil]
    omega

namespace Scalar

open Reader

theorem plainRun_word (letters : ∀ c ∈ word, isLetter c = true)
    (stop : endsPlain false (rest.headD endMark) (rest.tail.headD endMark) = true)
    (done : List Char) : plainRun false done (word ++ rest) = done.reverse ++ word := by
  induction word generalizing done with
  | nil =>
    cases rest with
    | nil => exact (List.append_nil _).symm
    | cons c rest =>
      rw [List.nil_append, plainRun, List.append_nil]
      exact if_pos stop
  | cons c word ih =>
    obtain ⟨letter, letters⟩ := List.forall_mem_cons.mp letters
    have goes (next : Char) : endsPlain false c next = false := by
      simp only [endsPlain, isBlankOrEnd_of_isLetter letter, Bool.false_and, Bool.or_self,
        beq_of_isLetter letter (show isLetter ':' = false from rfl)]
    rw [List.cons_append, plainRun, goes, if_neg Bool.false_ne_true, ih letters, List.reverse_cons,
      List.append_assoc]
    rfl

theorem run_plainBreaks (bare : IsBare rest) (fuel : Nat) (done : List Char) :
    (plainBreaks (fuel + 1) done).run ⟨rest, none, size, index, line, column⟩ =
      .ok (some done.reverse, ⟨rest, none, size, index, line, column⟩) := by
  rw [plainBreaks, run_bind_of_run (run_peek rfl 0), bare.1, if_neg Bool.false_ne_true,
    run_bind_of_run (run_lineBreak_bare rfl bare)]
  rfl

/-- The end of a line behind a part of a plain scalar is taken, whatever comes next. -/
theorem exists_run_plainSpace (bare : IsBare rest) (fuel : Nat) :
    ∃ gap, (plainSpace (fuel + 1)).run ⟨'\n' :: rest, none, size, index, line, column⟩ =
      .ok ((gap, true), ⟨rest, none, size, index + 1, line + 1, 0⟩) := by
  have feed : lineBreak.run ⟨'\n' :: rest, none, size, index, line, column⟩ =
      .ok (some '\n', ⟨rest, none, size, index + 1, line + 1, 0⟩) := rfl
  obtain ⟨separates, told⟩ := @exists_run_atSeparator
    ⟨rest, none, size, index + 1, line + 1, 0⟩ rfl
  have blanks : (takeRun (· == ' ')).run ⟨'\n' :: rest, none, size, index, line, column⟩ =
      .ok ([], ⟨'\n' :: rest, none, size, index, line, column⟩) := rfl
  rw [plainSpace, run_bind_of_run blanks, run_bind_of_run feed]
  simp only []
  rw [run_bind_of_run told]
  cases separates with
  | true => exact ⟨[], rfl⟩
  | false =>
    simp only [Bool.false_eq_true, ↓reduceIte]
    rw [run_bind_of_run (run_plainBreaks bare fuel [])]
    exact ⟨_, rfl⟩

/-- A word is read as a plain scalar where the space behind it does not lead into another part. -/
theorem run_plain {indent : Int} {gap : List Char} {lineEnded : Bool} {after : Cursor}
    (valid : IsWord word)
    (stop : endsPlain false (rest.headD endMark) (rest.tail.headD endMark) = true)
    (spaced : (plainSpace size).run
      ⟨rest, none, size, index + word.length, line, column + word.length⟩ =
        .ok ((gap, lineEnded), after))
    (ends : gap = [] ∨ after.ending = none ∧ after.column < indent) :
    (plain false indent).run ⟨word ++ rest, none, size, index, line, column⟩ =
      .ok ((word, lineEnded), after) := by
  have fuel : rounds.run ⟨word ++ rest, none, size, index, line, column⟩ =
      .ok (size + 1, ⟨word ++ rest, none, size, index, line, column⟩) := rfl
  have parts : (plainFrom false indent (size + 1) [] [] false).run
      ⟨word ++ rest, none, size, index, line, column⟩ = .ok (([word, []], lineEnded), after) := by
    have run : plainRun false [] (word ++ rest) = word := plainRun_word valid.letters stop []
    have first : ((word ++ rest).getD 0 endMark == '#') = false := valid.isBare.2.1
    -- Whether the text behind the word is looked at makes no difference where there is all of it.
    have colon (c : Char) (next : Unit → Reader (List (List Char) × Bool)) :
        (if (c == ':') = true then need (word.length + 2) >>= next else next ()).run
          ⟨word ++ rest, none, size, index, line, column⟩ =
        (next ()).run ⟨word ++ rest, none, size, index, line, column⟩ := by
      split
      · exact run_bind_of_run (run_need rfl _)
      · rfl
    rw [plainFrom, run_bind_of_run (run_peek rfl 0), first, if_neg Bool.false_ne_true,
      run_get_bind]
    simp only [run]
    rw [run_bind_of_run (run_peek rfl _), colon, if_neg valid.nonempty,
      run_bind_of_run (run_advance rfl _), stepMany_word valid.letters, run_bind_of_run spaced]
    rcases ends with rfl | ⟨whole, low⟩
    · rfl
    · have left : (!false && decide ((after.column : Int) < indent)) = true := decide_eq_true low
      split
      · rfl
      rw [run_bind_of_run (run_peek whole 0)]
      split
      · rfl
      rw [run_get_bind, if_pos left]
      rfl
  rw [plain, run_bind_of_run fuel, run_bind_of_run parts]
  exact congrArg (fun text => Except.ok ((text, lineEnded), after)) (List.append_nil word)

theorem run_plain_key {indent : Int} (valid : IsWord word) :
    (plain false indent).run ⟨word ++ ':' :: ' ' :: rest, none, size, index, line, column⟩ =
      .ok ((word, false),
        ⟨':' :: ' ' :: rest, none, size, index + word.length, line, column + word.length⟩) :=
  run_plain valid rfl rfl (Or.inl rfl)

theorem run_plain_value {indent : Int} (valid : IsWord word) (bare : IsBare rest) (room : 0 < size)
    (deep : 0 < indent) :
    (plain false indent).run ⟨word ++ '\n' :: rest, none, size, index, line, column⟩ =
      .ok ((word, true), ⟨rest, none, size, index + word.length + 1, line + 1, 0⟩) := by
  obtain ⟨fuel, rfl⟩ := Nat.exists_eq_add_of_le' room
  obtain ⟨gap, spaced⟩ := exists_run_plainSpace bare fuel
  exact run_plain valid rfl spaced (Or.inr ⟨rfl, deep⟩)

end Scalar

end MemoryBoard.Yaml
