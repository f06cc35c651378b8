import MemoryBoard.Text.Lines

set_option autoImplicit false

namespace MemoryBoard.Text

theorem linesOf_feed (rest : List Char) : linesOf ('\n' :: rest) = [] :: linesOf rest := by
  have some := List.splitOn_ne_nil '\n' rest
  simp only [linesOf, List.splitOn_cons_eq_if_modifyHead, beq_self_eq_true, ↓reduceIte,
    List.getLast?_cons_of_ne_nil some, List.dropLast_cons_of_ne_nil some]
  split <;> rfl

theorem linesOf_cons {c : Char} (other : c ≠ '\n') (rest : List Char) :
    linesOf (c :: rest) = (c :: (linesOf rest).headD []) :: (linesOf rest).tail := by
  have apart : (c == '\n') = false := beq_eq_false_iff_ne.mpr other
  simp only [linesOf, List.splitOn_cons_eq_if_modifyHead, apart, Bool.false_eq_true, ↓reduceIte]
  cases split : rest.splitOn '\n' with
  | nil => exact absurd split (List.splitOn_ne_nil '\n' rest)
  | cons piece more =>
    cases more with
    | nil => cases piece <;> simp
    | cons next more =>
      simp only [List.modifyHead_cons, List.getLast?_cons_cons, List.dropLast_cons_cons]
      split <;> rfl

theorem linesOf_line {line : List Char} (plain : '\n' ∉ line) (rest : List Char) :
    linesOf (line ++ '\n' :: rest) = line :: linesOf rest := by
  induction line with
  | nil => exact linesOf_feed rest
  | cons c tail ih =>
    have other : c ≠ '\n' := by
      intro same
      exact plain (by rw [same]; exact List.mem_cons_self)
    have later : '\n' ∉ tail := fun member => plain (List.mem_cons_of_mem c member)
    rw [List.cons_append, linesOf_cons other, ih later, List.headD_cons, List.tail_cons]

/-- The text of some lines. -/
def joinLines (lines : List (List Char)) : List Char :=
  lines.flatMap (· ++ ['\n'])

theorem joinLines_cons (line : List Char) (lines : List (List Char)) :
    joinLines (line :: lines) = line ++ '\n' :: joinLines lines := by
  simp only [joinLines, List.flatMap_cons, List.append_assoc, List.singleton_append]

theorem linesOf_joinLines {lines : List (List Char)} (plain : ∀ line ∈ lines, '\n' ∉ line)
    (rest : List Char) : linesOf (joinLines lines ++ rest) = lines ++ linesOf rest := by
  induction lines with
  | nil => rfl
  | cons line lines ih =>
    have later : ∀ line ∈ lines, '\n' ∉ line := fun other member =>
      plain other (List.mem_cons_of_mem line member)
    rw [joinLines_cons, List.append_assoc, List.cons_append,
      linesOf_line (plain line List.mem_cons_self), ih later, List.cons_append]

theorem linesOf_joinLines_eq {lines : List (List Char)} (plain : ∀ line ∈ lines, '\n' ∉ line) :
    linesOf (joinLines lines) = lines := by
  have whole := linesOf_joinLines plain []
  rwa [List.append_nil, show linesOf [] = [] from rfl, List.append_nil] at whole

theorem plain_of_mem_linesOf {text line : List Char} (member : line ∈ linesOf text) :
    '\n' ∉ line := by
  induction text generalizing line with
  | nil => cases member
  | cons c rest ih =>
    by_cases feed : c = '\n'
    · rw [feed, linesOf_feed] at member
      rcases List.mem_cons.mp member with first | later
      · rw [first]
        exact List.not_mem_nil
      · exact ih later
    · rw [linesOf_cons feed] at member
      cases lines : linesOf rest with
      | nil =>
        rw [lines] at member
        rw [List.mem_singleton.mp member]
        exact fun same => feed (List.mem_singleton.mp same).symm
      | cons first more =>
        rw [lines] at member ih
        rcases List.mem_cons.mp member with grown | later
        · rw [grown]
          intro same
          rcases List.mem_cons.mp same with here | there
          · exact feed here.symm
          · exact ih List.mem_cons_self there
        · exact ih (List.mem_cons_of_mem first later)

/-- A text begins with its first line. -/
theorem exists_linesOf_eq_cons {text : List Char} (some : text ≠ []) :
    ∃ line more, linesOf text = line :: more ∧ line <+: text := by
  induction text with
  | nil => exact absurd rfl some
  | cons c rest ih =>
    by_cases feed : c = '\n'
    · rw [feed, linesOf_feed]
      exact ⟨[], linesOf rest, rfl, List.nil_prefix⟩
    · rw [linesOf_cons feed]
      refine ⟨_, _, rfl, List.cons_prefix_cons.mpr ⟨rfl, ?_⟩⟩
      cases rest with
      | nil => exact List.nil_prefix
      | cons next rest =>
        obtain ⟨line, more, split, front⟩ := ih (List.cons_ne_nil next rest)
        rw [split]
        exact front

/-- Where a line begins: behind those in front of it, and their ends. -/
def lineStart (text : List Char) (index : Nat) : Nat :=
  (joinLines ((linesOf text).take index)).length

/-- A text has the lines in front of one, and then begins with that. -/
theorem exists_eq_joinLines_append {text line : List Char} {index : Nat}
    (here : (linesOf text)[index]? = some line) :
    ∃ behind, text = joinLines ((linesOf text).take index) ++ behind ∧ line <+: behind := by
  induction text generalizing index with
  | nil => cases here
  | cons c rest ih =>
    cases index with
    | zero =>
      obtain ⟨first, more, lines, begins⟩ := exists_linesOf_eq_cons (List.cons_ne_nil c rest)
      rw [lines] at here
      cases here
      exact ⟨c :: rest, rfl, begins⟩
    | succ index =>
      by_cases feed : c = '\n'
      · rw [feed, linesOf_feed] at here ⊢
        obtain ⟨behind, split, begins⟩ := ih here
        refine ⟨behind, ?_, begins⟩
        rw [List.take_succ_cons, joinLines_cons, List.nil_append, List.cons_append, ← split]
      · rw [linesOf_cons feed] at here ⊢
        cases lines : linesOf rest with
        | nil =>
          rw [lines] at here
          cases here
        | cons first more =>
          rw [lines] at here ih
          have later : (first :: more)[index + 1]? = some line := here
          obtain ⟨behind, split, begins⟩ := ih later
          refine ⟨behind, ?_, begins⟩
          rw [List.take_succ_cons, joinLines_cons, List.append_assoc] at split
          rw [List.tail_cons, List.headD_cons, List.take_succ_cons, joinLines_cons,
            List.append_assoc, List.cons_append, ← split]

/-- A character behind the start of a line is one of what the text has from there. -/
theorem getElem?_lineStart {text behind : List Char} {index : Nat}
    (split : text = joinLines ((linesOf text).take index) ++ behind) (position : Nat) :
    text[lineStart text index + position]? = behind[position]? := by
  rw [lineStart]
  generalize joinLines ((linesOf text).take index) = before at split ⊢
  rw [split, List.getElem?_append_right (Nat.le_add_right _ _), Nat.add_sub_cancel_left]

/-- If such a character is changed, the lines in front of it are the same. -/
theorem linesOf_set {text behind : List Char} {index position : Nat} {old : Char}
    (split : text = joinLines ((linesOf text).take index) ++ behind)
    (present : behind[position]? = some old) (new : Char) :
    ∃ line more, linesOf (text.set (lineStart text index + position) new) =
      (linesOf text).take index ++ line :: more ∧ line <+: behind.set position new := by
  have plain : ∀ line ∈ (linesOf text).take index, '\n' ∉ line := fun line member =>
    plain_of_mem_linesOf (List.mem_of_mem_take member)
  have changed : text.set (lineStart text index + position) new =
      joinLines ((linesOf text).take index) ++ behind.set position new := by
    -- Named, since the text stands for itself in the lines in front as well.
    rw [lineStart]
    generalize joinLines ((linesOf text).take index) = before at split ⊢
    rw [split, List.set_append_right _ _ (Nat.le_add_right _ _), Nat.add_sub_cancel_left]
  have filled : behind.set position new ≠ [] := by
    rintro none
    rw [List.set_eq_nil_iff] at none
    rw [none] at present
    cases present
  obtain ⟨line, more, lines, front⟩ := exists_linesOf_eq_cons filled
  refine ⟨line, more, ?_, front⟩
  rw [changed, linesOf_joinLines plain, lines]

theorem joinLines_set {lines : List (List Char)} {line : List Char} {index position : Nat}
    (here : lines[index]? = some line) (inside : position < line.length) (new : Char) :
    (joinLines lines).set ((joinLines (lines.take index)).length + position) new =
      joinLines (lines.set index (line.set position new)) := by
  induction lines generalizing index with
  | nil => cases here
  | cons first rest ih =>
    cases index with
    | zero =>
      cases here
      have start : (joinLines ((line :: rest).take 0)).length + position = position :=
        Nat.zero_add position
      rw [start, joinLines_cons, List.set_append_left _ _ inside, List.set_cons_zero,
        joinLines_cons]
    | succ index =>
      have start : (joinLines ((first :: rest).take (index + 1))).length + position =
          first.length + ((joinLines (rest.take index)).length + position + 1) := by
        rw [List.take_succ_cons, joinLines_cons, List.length_append, List.length_cons]
        omega
      rw [start, joinLines_cons, List.set_append_right _ _ (Nat.le_add_right _ _),
        Nat.add_sub_cancel_left, List.set_cons_succ, ih here, List.set_cons_succ, joinLines_cons]

/-- A text put together from lines, and a character of one of them changed. -/
theorem linesOf_joinLines_set {lines : List (List Char)} {line : List Char} {new : Char}
    {index position : Nat} (plain : ∀ line ∈ lines, '\n' ∉ line)
    (here : lines[index]? = some line) (inside : position < line.length) (other : new ≠ '\n') :
    linesOf ((joinLines lines).set (lineStart (joinLines lines) index + position) new) =
      lines.set index (line.set position new) := by
  rw [lineStart, linesOf_joinLines_eq plain, joinLines_set here inside]
  refine linesOf_joinLines_eq fun changed member feed => ?_
  rcases List.mem_or_eq_of_mem_set member with old | same
  · exact plain changed old feed
  · rw [same] at feed
    rcases List.mem_or_eq_of_mem_set feed with before | new
    · exact plain line (List.mem_of_getElem? here) before
    · exact other new.symm

/-- A text without its unfinished last line still has every whole line. -/
theorem dropUnfinished_append (front back : List Char) :
    ∃ more, ((front ++ '\n' :: back).reverse.dropWhile (· != '\n')).reverse =
      front ++ '\n' :: more := by
  rw [List.reverse_append, List.reverse_cons, List.append_assoc, List.dropWhile_append]
  split
  · exact ⟨[], by simp⟩
  · exact ⟨(back.reverse.dropWhile (· != '\n')).reverse, by simp⟩

theorem Source.lines_joinLines {lines : List (List Char)}
    (plain : ∀ line ∈ lines, '\n' ∉ line) (further : List Char) (defect : Option Defect) :
    ∃ more, Source.lines ⟨joinLines lines ++ further, defect⟩ = lines ++ more := by
  cases defect with
  | none => exact ⟨linesOf further, linesOf_joinLines plain further⟩
  | some cause =>
    rcases List.eq_nil_or_concat lines with nothing | ⟨front, last, split⟩
    · rw [nothing]
      exact ⟨_, rfl⟩
    · have text : joinLines lines ++ further =
          (joinLines front ++ last) ++ '\n' :: further := by
        rw [split]
        simp [joinLines]
      obtain ⟨more, whole⟩ := dropUnfinished_append (joinLines front ++ last) further
      refine ⟨linesOf more, ?_⟩
      have rejoined : (joinLines front ++ last) ++ '\n' :: more = joinLines lines ++ more := by
        rw [split]
        simp [joinLines]
      simp only [Source.lines, text, whole, rejoined]
      exact linesOf_joinLines plain more

/-- The text with a carriage return in front of every line feed. -/
def withCarriageReturns (text : List Char) : List Char :=
  text.flatMap fun c => if c = '\n' then ['\r', '\n'] else [c]

theorem withCarriageReturns_of_plain {line : List Char} (plain : '\n' ∉ line) :
    withCarriageReturns line = line := by
  induction line with
  | nil => rfl
  | cons c tail ih =>
    have other : ¬ c = '\n' := by
      intro same
      exact plain (by rw [same]; exact List.mem_cons_self)
    have later : '\n' ∉ tail := fun member => plain (List.mem_cons_of_mem c member)
    have tailText := ih later
    unfold withCarriageReturns at tailText ⊢
    rw [List.flatMap_cons, tailText]
    simp only [other, ↓reduceIte, List.singleton_append]

theorem withCarriageReturns_joinLines {lines : List (List Char)}
    (plain : ∀ line ∈ lines, '\n' ∉ line) :
    withCarriageReturns (joinLines lines) = joinLines (lines.map (· ++ ['\r'])) := by
  induction lines with
  | nil => rfl
  | cons line lines ih =>
    have later : ∀ line ∈ lines, '\n' ∉ line := fun other member =>
      plain other (List.mem_cons_of_mem line member)
    have here := withCarriageReturns_of_plain (plain line List.mem_cons_self)
    have rest := ih later
    rw [List.map_cons, joinLines_cons, joinLines_cons, ← rest]
    unfold withCarriageReturns at here ⊢
    rw [List.flatMap_append, here, List.flatMap_cons]
    simp only [↓reduceIte, List.append_assoc, List.cons_append, List.nil_append]

end MemoryBoard.Text
