import MemoryBoard.Proofs.Yaml.Scanner

set_option autoImplicit false

namespace MemoryBoard.Yaml

namespace Scanner

variable {scanner : Scanner} {rest : List Char} {size index line column : Nat}

/-- The mapping that opens with its first key. -/
def opening (inMapping : Bool) (line : Nat) : List Token :=
  if inMapping then [] else [⟨.blockMappingStart, line⟩]

def closing (inMapping : Bool) (line : Nat) : List Token :=
  if inMapping then [⟨.blockEnd, line⟩] else []

/-- A scanner without waiting tokens, inside a mapping of the first column or outside of any. -/
def between (cursor : Cursor) (taken : Nat) (inMapping keyAllowed : Bool) : Scanner where
  cursor
  waiting := []
  taken
  ended := false
  flowLevel := 0
  indent := if inMapping then 0 else -1
  outerIndents := if inMapping then [-1] else []
  keyAllowed
  candidates := []

/-- A scanner at the end of the text. -/
def finished (cursor : Cursor) (taken : Nat) : Scanner :=
  { between cursor taken false false with ended := true }

/-- A scanner with a word from the beginning of the line, which may turn out to be a key. -/
def pending (cursor : Cursor) (taken : Nat) (inMapping : Bool) (key : List Char)
    (start line : Nat) : Scanner :=
  { between cursor taken inMapping false with
    waiting := [⟨.scalar (key.map .char), line⟩]
    candidates := [⟨0, taken, inMapping, start, line, 0⟩] }

variable {word key text : List Char} {entry : String × String} {entries : List (String × String)}
  {taken start : Nat} {inMapping keyAllowed : Bool} {c : Char}

/-- A key may begin on a new line. -/
theorem run_skipToToken_feed (bare : IsBare rest) (room : 0 < size) :
    (skipToToken (size + 1)).run
      (between ⟨'\n' :: rest, none, size, index, line, column⟩ taken inMapping keyAllowed) =
    .ok ((), between ⟨rest, none, size, index + 1, line + 1, 0⟩ taken inMapping true) := by
  obtain ⟨fuel, rfl⟩ := Nat.exists_eq_add_of_le' room
  have spaces : Reader.skipSpaces.run ⟨'\n' :: rest, none, fuel + 1, index, line, column⟩ =
      .ok ((), ⟨'\n' :: rest, none, fuel + 1, index, line, column⟩) := rfl
  have comment : Reader.skipComment.run ⟨'\n' :: rest, none, fuel + 1, index, line, column⟩ =
      .ok ((), ⟨'\n' :: rest, none, fuel + 1, index, line, column⟩) := rfl
  have feed : Reader.lineBreak.run ⟨'\n' :: rest, none, fuel + 1, index, line, column⟩ =
      .ok (some '\n', ⟨rest, none, fuel + 1, index + 1, line + 1, 0⟩) := rfl
  have flow (cursor : Cursor) : inFlow.run (between cursor taken inMapping keyAllowed) =
      .ok (false, between cursor taken inMapping keyAllowed) := rfl
  have allowed (cursor : Cursor) : (allowKey true).run (between cursor taken inMapping keyAllowed) =
      .ok ((), between cursor taken inMapping true) := rfl
  have moves {α : Type} {reader : Reader α} {value : α} {before after : Cursor}
      (ran : reader.run before = .ok (value, after)) :
      (reading reader).run (between before taken inMapping keyAllowed) =
        .ok (value, between after taken inMapping keyAllowed) := run_reading ran
  rw [skipToToken, run_bind_of_run (moves spaces), run_bind_of_run (moves comment),
    run_bind_of_run (moves feed), run_bind_of_run (flow _), Bool.not_false, if_pos rfl,
    run_bind_of_run (allowed _)]
  exact run_skipToToken_bare rfl bare fuel

theorem indent_le : (if inMapping then 0 else -1 : Int) ≤ (column : Int) := by
  have positive := Int.natCast_nonneg column
  cases inMapping with
  | false => exact Int.le_trans (show (-1 : Int) ≤ 0 by decide) positive
  | true => exact positive

theorem run_fetchToken_letter (letter : isLetter c = true) :
    (fetchToken c).run scanner = fetchPlain.run scanner := by
  have differs (other : Char) := @beq_of_isLetter c other letter
  simp only [fetchToken, differs endMark rfl, differs '%' rfl, differs '-' rfl, differs '.' rfl,
    differs '[' rfl, differs ']' rfl, differs '{' rfl, differs '}' rfl, differs ',' rfl,
    differs '?' rfl, differs ':' rfl, differs '*' rfl, differs '&' rfl, differs '!' rfl,
    differs '|' rfl, differs '>' rfl, differs '\x27' rfl, differs '\x22' rfl, Bool.false_and,
    Bool.false_eq_true, ↓reduceIte, startsPlain, isBlankOrEnd_of_isLetter letter,
    isIndicator_of_isLetter letter, pure_bind, Bool.not_false, Bool.and_self]
  rfl

theorem run_fetchPlain {noted : Scanner} {lineEnded : Bool} {cursor : Cursor}
    (notes : noteCandidate.run scanner = .ok ((), noted)) (block : noted.flowLevel = 0)
    (read : (Scalar.plain false (noted.indent + 1)).run noted.cursor =
      .ok ((word, lineEnded), cursor)) :
    fetchPlain.run scanner = .ok ((), { noted with
      cursor
      keyAllowed := lineEnded
      waiting := noted.waiting ++ [⟨.scalar (word.map .char), noted.cursor.line⟩] }) := by
  have flow : inFlow.run noted = .ok (false, noted) := by
    cases noted
    cases block
    rfl
  rw [fetchPlain, run_bind_of_run notes, run_get_bind, run_bind_of_run flow,
    run_bind_of_run (run_reading read)]
  rfl

/-- The key of a line, which shows as such at the colon only. -/
theorem run_fetchToken_key (valid : IsWord key) :
    (fetchToken ((key ++ ':' :: ' ' :: rest).getD 0 endMark)).run
      (between ⟨key ++ ':' :: ' ' :: rest, none, size, start, line, 0⟩ taken inMapping true) =
    .ok ((), pending ⟨':' :: ' ' :: rest, none, size, start + key.length, line, key.length⟩ taken
      inMapping key start line) := by
  have notes : noteCandidate.run
      (between ⟨key ++ ':' :: ' ' :: rest, none, size, start, line, 0⟩ taken inMapping true) =
    .ok ((), { between ⟨key ++ ':' :: ' ' :: rest, none, size, start, line, 0⟩ taken inMapping
        true with
      candidates := [⟨0, taken, inMapping, start, line, 0⟩] }) := by
    cases inMapping <;> rfl
  rw [run_fetchToken_letter valid.isLetter_first,
    run_fetchPlain notes rfl (Scalar.run_plain_key valid), Nat.zero_add]
  rfl

/-- The value of a line, with the end of the line. -/
theorem run_fetchToken_text (valid : IsWord text)
    (bare : IsBare rest) (room : 0 < size) :
    (fetchToken ((text ++ '\n' :: rest).getD 0 endMark)).run
      (between ⟨text ++ '\n' :: rest, none, size, index, line, column⟩ taken true false) =
    .ok ((), { between ⟨rest, none, size, index + text.length + 1, line + 1, 0⟩ taken true true with
      waiting := [⟨.scalar (text.map .char), line⟩] }) := by
  have notes : noteCandidate.run
      (between ⟨text ++ '\n' :: rest, none, size, index, line, column⟩ taken true false) =
    .ok ((), between ⟨text ++ '\n' :: rest, none, size, index, line, column⟩ taken true false) :=
    rfl
  have read := @Scalar.run_plain_value text rest size index line column 1 valid bare room
    Int.zero_lt_one
  rw [run_fetchToken_letter valid.isLetter_first, run_fetchPlain notes rfl read]
  rfl

theorem run_fetchToken_colon :
    (fetchToken ':').run
      (pending ⟨':' :: ' ' :: rest, none, size, index, line, column⟩ taken inMapping key start
        line) =
    .ok ((), { between ⟨' ' :: rest, none, size, index + 1, line, column + 1⟩ taken true false with
      waiting := opening inMapping line ++
        [⟨.key, line⟩, ⟨.scalar (key.map .char), line⟩, ⟨.value, line⟩] }) := by
  have fetched : (fetchToken ':').run
      (pending ⟨':' :: ' ' :: rest, none, size, index, line, column⟩ taken inMapping key start
        line) =
      .ok ((), { between ⟨' ' :: rest, none, size, index + 1, line, column + 1⟩ taken true
          false with
        waiting :=
          let keyed := [⟨.scalar (key.map .char), line⟩].insertIdx (taken - taken) ⟨.key, line⟩
          (if inMapping then keyed
            else keyed.insertIdx (taken - taken) ⟨.blockMappingStart, line⟩) ++
          [⟨.value, line⟩] }) := by
    cases inMapping <;> rfl
  rw [fetched, Nat.sub_self]
  cases inMapping <;> rfl

theorem run_fetchToken_mark :
    (fetchToken '-').run
      (between ⟨'-' :: '-' :: '-' :: '\n' :: rest, none, size, index, line, 0⟩ taken inMapping
        keyAllowed) =
    .ok ((), { between ⟨'\n' :: rest, none, size, index + 3, line, 3⟩ taken false false with
      waiting := closing inMapping line ++ [⟨.documentStart, line⟩] }) := by
  cases inMapping <;> rfl

theorem run_fetchToken_end :
    (fetchToken endMark).run
      (between ⟨[], none, size, index, line, column⟩ taken inMapping keyAllowed) =
    .ok ((), { finished ⟨[], none, size, index, line, column⟩ taken with
      waiting := closing inMapping line ++ [⟨.streamEnd, line⟩] }) := by
  cases inMapping <;> rfl

/-- A word at the beginning of a line is a key if a colon follows. -/
theorem hands_key (cursor : Cursor) (valid : IsWord key) (whole : cursor.ending = none)
    (unmarked : (cursor.rest.getD 0 endMark == '\ufeff') = false)
    (skips : (skipToToken (cursor.size + 1)).run (between cursor taken inMapping keyAllowed) =
      .ok ((), between ⟨key ++ ':' :: ' ' :: rest, none, size, start, line, 0⟩ taken inMapping
        true)) :
    Hands (between cursor taken inMapping keyAllowed) []
      (pending ⟨':' :: ' ' :: rest, none, size, start + key.length, line, key.length⟩ taken
        inMapping key start line) 1 := by
  have fetched := run_fetch (between cursor taken inMapping keyAllowed) whole unmarked skips rfl
    nofun indent_le
  exact hands_fetch rfl (fetched.trans (run_fetchToken_key valid))

/-- The colon behind a key, which shows what the word in front of it is. -/
theorem hands_colon (short : column ≤ 1024) :
    Hands (pending ⟨':' :: ' ' :: rest, none, size, start + column, line, column⟩ taken inMapping
        key start line)
      (opening inMapping line ++ [⟨.key, line⟩, ⟨.scalar (key.map .char), line⟩, ⟨.value, line⟩])
      (between ⟨' ' :: rest, none, size, start + column + 1, line, column + 1⟩
        (taken + (opening inMapping line).length + 3) true false)
      (1 + (opening inMapping line).length + 3) := by
  have fresh : ∀ candidate ∈ (pending ⟨':' :: ' ' :: rest, none, size, start + column, line, column⟩
      taken inMapping key start line).candidates,
      KeyCandidate.isStale candidate
        ⟨':' :: ' ' :: rest, none, size, start + column, line, column⟩ = false := by
    simp only [pending, List.forall_mem_singleton, KeyCandidate.isStale, bne_self_eq_false,
      Bool.false_or, decide_eq_false_iff_not]
    omega
  have needed : needsMore.run (pending ⟨':' :: ' ' :: rest, none, size, start + column, line,
        column⟩ taken inMapping key start line) =
      .ok (true, pending ⟨':' :: ' ' :: rest, none, size, start + column, line, column⟩ taken
        inMapping key start line) := by
    rw [needsMore, run_get_bind]
    change (dropStale >>= fun _ => get >>= fun scanner : Scanner =>
      pure ((scanner.candidates.map (·.number)).min? == some taken)).run _ = _
    rw [run_bind_of_run (run_dropStale fresh), run_get_bind]
    change Except.ok (some taken == some taken, _) = _
    rw [beq_self_eq_true]
  have fetched := run_fetch (pending ⟨':' :: ' ' :: rest, none, size, start + column, line, column⟩
    taken inMapping key start line) rfl rfl (run_skipToToken_bare rfl ⟨rfl, rfl, rfl⟩ size) rfl
    fresh indent_le
  have handed := hands_fetched needed (fetched.trans run_fetchToken_colon) rfl rfl
  simp only [List.length_append, ← Nat.add_assoc] at handed
  exact handed

/-- A value and the end of its line. -/
theorem hands_text (valid : IsWord text)
    (bare : IsBare rest) (room : 0 < size) :
    Hands
      (between ⟨' ' :: (text ++ '\n' :: rest), none, size, index, line, column⟩ taken true false)
      [⟨.scalar (text.map .char), line⟩]
      (between ⟨rest, none, size, index + 1 + text.length + 1, line + 1, 0⟩ (taken + 1) true true)
      2 := by
  have skips := @run_skipToToken_space
    (between ⟨' ' :: (text ++ '\n' :: rest), none, size, index, line, column⟩ taken true false)
    _ _ _ _ _ valid.isBare size rfl
  have fetched := run_fetch
    (between ⟨' ' :: (text ++ '\n' :: rest), none, size, index, line, column⟩ taken true false)
    rfl rfl skips rfl nofun (@indent_le (column + 1) true)
  exact hands_fetched rfl (fetched.trans (run_fetchToken_text valid bare room)) rfl rfl

/-- The tokens of a line. -/
def entryTokens (line : Nat) (entry : String × String) : List Token :=
  [⟨.key, line⟩, ⟨.scalar entry.1, line⟩, ⟨.value, line⟩, ⟨.scalar entry.2, line⟩]

/-- The tokens of the lines from one on. -/
def entriesTokens (line : Nat) : List (String × String) → List Token
  | [] => []
  | entry :: entries => entryTokens line entry ++ entriesTokens (line + 1) entries

theorem hands_entry (cursor : Cursor) (taken : Nat) (inMapping keyAllowed : Bool)
    (valid : IsEntry entry) (bare : IsBare rest) (room : 0 < size) (whole : cursor.ending = none)
    (unmarked : (cursor.rest.getD 0 endMark == '\ufeff') = false)
    (skips : (skipToToken (cursor.size + 1)).run (between cursor taken inMapping keyAllowed) =
      .ok ((), between ⟨entryText entry ++ rest, none, size, start, line, 0⟩ taken inMapping
        true)) :
    ∃ index count, Hands (between cursor taken inMapping keyAllowed)
      (opening inMapping line ++ entryTokens line entry)
      (between ⟨rest, none, size, index, line + 1, 0⟩ count true true) 8 := by
  rw [entryText_append] at skips
  have handed := (hands_key cursor valid.key whole unmarked skips).trans
    ((hands_colon valid.short).trans (hands_text valid.text bare room))
  have few : (opening inMapping line).length ≤ 1 := by
    cases inMapping
    · exact Nat.le_refl 1
    · exact Nat.zero_le 1
  rw [List.nil_append, List.append_assoc] at handed
  exact ⟨_, _, handed.mono (by omega)⟩

theorem hands_entries (valid : ∀ entry ∈ entries, IsEntry entry) (bare : IsBare rest)
    (room : 0 < size) (index line taken : Nat) :
    ∃ later count, Hands
      (between ⟨entries.flatMap entryText ++ rest, none, size, index, line, 0⟩ taken true true)
      (entriesTokens line entries)
      (between ⟨rest, none, size, later, line + entries.length, 0⟩ count true true)
      (8 * entries.length) := by
  induction entries generalizing index line taken with
  | nil => exact ⟨index, taken, hands_none⟩
  | cons entry entries ih =>
    obtain ⟨here, others⟩ := List.forall_mem_cons.mp valid
    rw [List.flatMap_cons, List.append_assoc]
    obtain ⟨middle, between, first⟩ := hands_entry
      ⟨entryText entry ++ (entries.flatMap entryText ++ rest), none, size, index, line, 0⟩
      taken true true here (isBare_entries others bare) room rfl here.unmarked
      (run_skipToToken_bare rfl here.isBare size)
    obtain ⟨later, count, second⟩ := ih others middle (line + 1) between
    rw [Nat.add_assoc, Nat.add_comm 1] at second
    exact ⟨later, count, (first.trans second).mono (by rw [List.length_cons]; omega)⟩

/-- The tokens of documents, inside a mapping that has to end first or outside of any. -/
def streamTokens (inMapping : Bool) (line : Nat) : List (List (String × String)) → List Token
  | [] => closing inMapping line ++ [⟨.streamEnd, line⟩]
  | entries :: documents =>
    closing inMapping line ++ ⟨.documentStart, line⟩ :: ⟨.blockMappingStart, line + 1⟩ ::
      (entriesTokens (line + 1) entries ++ streamTokens true (line + 1 + entries.length) documents)

variable {documents : List (List (String × String))}

theorem streamTokens_true : streamTokens true line documents =
    ⟨.blockEnd, line⟩ :: streamTokens false line documents := by
  cases documents <;> rfl

theorem length_closing : (closing inMapping line).length ≤ 1 := by
  cases inMapping
  · exact Nat.zero_le 1
  · exact Nat.le_refl 1

theorem hands_mark :
    Hands (between ⟨'-' :: '-' :: '-' :: '\n' :: rest, none, size, index, line, 0⟩ taken inMapping
        keyAllowed)
      (closing inMapping line ++ [⟨.documentStart, line⟩])
      (between ⟨'\n' :: rest, none, size, index + 3, line, 3⟩
        (taken + (closing inMapping line).length + 1) false false) 3 := by
  have fetched := run_fetch (between ⟨'-' :: '-' :: '-' :: '\n' :: rest, none, size, index,
    line, 0⟩ taken inMapping keyAllowed) rfl rfl (run_skipToToken_bare rfl ⟨rfl, rfl, rfl⟩ size)
    rfl nofun indent_le
  have handed := hands_fetched rfl (fetched.trans run_fetchToken_mark) rfl rfl
  simp only [List.length_append, ← Nat.add_assoc] at handed
  exact handed.mono (Nat.add_le_add_right (Nat.add_le_add_left length_closing 1) 1)

theorem hands_end :
    Hands (between ⟨[], none, size, index, line, 0⟩ taken inMapping keyAllowed)
      (closing inMapping line ++ [⟨.streamEnd, line⟩])
      (finished ⟨[], none, size, index, line, 0⟩ (taken + (closing inMapping line).length + 1))
      3 := by
  have fetched := run_fetch (between ⟨[], none, size, index, line, 0⟩ taken inMapping keyAllowed)
    rfl rfl (run_skipToToken_bare rfl ⟨rfl, rfl, rfl⟩ size) rfl nofun indent_le
  have handed := hands_fetched rfl (fetched.trans run_fetchToken_end) rfl rfl
  simp only [List.length_append, ← Nat.add_assoc] at handed
  exact handed.mono (Nat.add_le_add_right (Nat.add_le_add_left length_closing 1) 1)

/-- The lines of a document, the first of which opens the mapping. -/
theorem hands_mapping (nonempty : entries ≠ []) (valid : ∀ entry ∈ entries, IsEntry entry)
    (bare : IsBare rest) (room : 0 < size) (index line taken : Nat) :
    ∃ later count, Hands
      (between ⟨'\n' :: (entries.flatMap entryText ++ rest), none, size, index, line, column⟩ taken
        false false)
      (⟨.blockMappingStart, line + 1⟩ :: entriesTokens (line + 1) entries)
      (between ⟨rest, none, size, later, line + 1 + entries.length, 0⟩ count true true)
      (8 * entries.length) := by
  cases entries with
  | nil => contradiction
  | cons entry entries =>
    obtain ⟨here, others⟩ := List.forall_mem_cons.mp valid
    rw [List.flatMap_cons, List.append_assoc]
    obtain ⟨middle, between, first⟩ := hands_entry
      ⟨'\n' :: (entryText entry ++ (entries.flatMap entryText ++ rest)), none, size, index, line,
        column⟩
      taken false false here (isBare_entries others bare) room rfl rfl
      (run_skipToToken_feed here.isBare room)
    obtain ⟨later, count, second⟩ := hands_entries others bare room middle (line + 1 + 1) between
    rw [Nat.add_assoc (line + 1), Nat.add_comm 1] at second
    exact ⟨later, count, (first.trans second).mono (by rw [List.length_cons]; omega)⟩

/-- A document from its mark to the end of its lines. The mapping stays open. -/
theorem hands_document (nonempty : entries ≠ []) (valid : ∀ entry ∈ entries, IsEntry entry)
    (bare : IsBare rest) (room : 0 < size) :
    ∃ later count, Hands
      (between ⟨documentText entries ++ rest, none, size, index, line, 0⟩ taken inMapping
        keyAllowed)
      (closing inMapping line ++ ⟨.documentStart, line⟩ :: ⟨.blockMappingStart, line + 1⟩ ::
        entriesTokens (line + 1) entries)
      (between ⟨rest, none, size, later, line + 1 + entries.length, 0⟩ count true true)
      (3 + 8 * entries.length) := by
  obtain ⟨later, count, mapping⟩ := @hands_mapping rest size 3 entries nonempty valid bare room
    (index + 3) line (taken + (closing inMapping line).length + 1)
  have mark := @hands_mark (entries.flatMap entryText ++ rest) size index line taken inMapping
    keyAllowed
  have both := mark.trans mapping
  rw [List.append_assoc] at both
  exact ⟨later, count, both⟩

theorem tokensFrom_finished (cursor : Cursor) (fuel : Nat) (done : List Token) :
    tokensFrom (fuel + 1) (finished cursor taken) done = (done.reverse, none) :=
  rfl

/-- Documents with a mapping each are taken to their end. -/
theorem tokensFrom_documents
    (nonempty : ∀ entries ∈ documents, entries ≠ [])
    (valid : ∀ entries ∈ documents, ∀ entry ∈ entries, IsEntry entry)
    (room : documents ≠ [] → 0 < size) (fuel : Nat) (done : List Token)
    (enough : 8 * (documents.flatMap documentText).length + 4 ≤ fuel) :
    tokensFrom fuel
      (between ⟨documents.flatMap documentText, none, size, index, line, 0⟩ taken inMapping
        keyAllowed) done =
      (done.reverse ++ streamTokens inMapping line documents, none) := by
  induction documents generalizing index line taken inMapping keyAllowed fuel done with
  | nil =>
    have rounds : 3 ≤ fuel := by
      omega
    obtain ⟨left, long, ended⟩ :=
      (@hands_end size index line taken inMapping keyAllowed).tokensFrom_eq rounds done
    obtain ⟨last, rfl⟩ : ∃ last, left = last + 1 := Nat.exists_eq_add_of_le' (by omega)
    rw [List.flatMap_nil, ended, tokensFrom_finished, List.reverse_append, List.reverse_reverse]
    rfl
  | cons entries documents ih =>
    obtain ⟨here, later⟩ := List.forall_mem_cons.mp nonempty
    obtain ⟨validHere, validLater⟩ := List.forall_mem_cons.mp valid
    have room := room (List.cons_ne_nil entries documents)
    have long := @length_entries entries
    rw [List.flatMap_cons, documentText, List.length_append, List.length_cons, List.length_cons,
      List.length_cons, List.length_cons] at enough
    obtain ⟨after, count, document⟩ := @hands_document (documents.flatMap documentText) size index
      line entries taken inMapping keyAllowed here validHere isBare_documents room
    have rounds : 3 + 8 * entries.length ≤ fuel := by
      omega
    obtain ⟨left, remains, taken⟩ := document.tokensFrom_eq rounds done
    rw [List.flatMap_cons, taken, ih later validLater (fun _ => room) left _ (by omega),
      streamTokens]
    simp only [List.reverse_append, List.reverse_reverse, List.append_assoc, List.cons_append]

end Scanner

open Scanner

/-- The tokens of a text of documents with a mapping each. -/
theorem Source.tokens_documents {documents : List (List (String × String))}
    (nonempty : ∀ entries ∈ documents, entries ≠ [])
    (valid : ∀ entries ∈ documents, ∀ entry ∈ entries, IsEntry entry) :
    (⟨documents.flatMap documentText, none⟩ : Source).tokens =
      (⟨.streamStart, 0⟩ :: streamTokens false 0 documents, none) := by
  have room : documents ≠ [] → 0 < (documents.flatMap documentText).length := by
    intro some
    cases documents with
    | nil => contradiction
    | cons entries documents => exact Nat.succ_pos _
  have begins : Hands (start ⟨documents.flatMap documentText, none⟩) [⟨.streamStart, 0⟩]
      (between ⟨documents.flatMap documentText, none, (documents.flatMap documentText).length, 0, 0,
        0⟩ 1 false true) 1 :=
    hands_waiting rfl rfl
  have rounds : 1 ≤ 8 * ((documents.flatMap documentText).length + 4) := by
    omega
  obtain ⟨left, long, begun⟩ := begins.tokensFrom_eq rounds []
  exact begun.trans (tokensFrom_documents nonempty valid room left _ (by omega))

end MemoryBoard.Yaml
