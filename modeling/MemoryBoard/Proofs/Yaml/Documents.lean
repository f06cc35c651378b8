import MemoryBoard.Proofs.Text.Ascii
import MemoryBoard.Proofs.Yaml.Tokens
import MemoryBoard.Yaml.EventStream

set_option autoImplicit false

namespace MemoryBoard.Yaml

open Scanner

variable {entries : List (String × String)} {documents : List (List (String × String))}
  {line : Nat}

namespace Parser

/-- Whether some events lead from one parser to another. -/
def Yields (parser : Parser) (events : List Event) (after : Parser) : Prop :=
  ∀ fuel done, eventsFrom (fuel + events.length) parser done =
    eventsFrom fuel after (events.reverse ++ done)

variable {parser between after : Parser} {events others : List Event}

theorem Yields.trans (first : Yields parser events between)
    (second : Yields between others after) : Yields parser (events ++ others) after := by
  intro fuel done
  rw [List.length_append, Nat.add_comm events.length, ← Nat.add_assoc, first, second,
    List.reverse_append, List.append_assoc]

theorem yields_step {phase : Phase} {event : Event} (current : parser.phase = some phase)
    (ran : (step phase).run parser = .ok (event, after)) : Yields parser [event] after := by
  intro fuel done
  rw [List.length_singleton, eventsFrom]
  simp only [current, ran]
  rfl

/-- The events of an entry in some line. -/
def entryEvents (line : Nat) (entry : String × String) : List Event :=
  [scalar entry.1 line, scalar entry.2 line]

/-- The events of the lines from one on. -/
def entriesEvents (line : Nat) : List (String × String) → List Event
  | [] => []
  | entry :: entries => entryEvents line entry ++ entriesEvents (line + 1) entries

/-- The events of documents from some line on. -/
def streamEvents (line : Nat) : List (List (String × String)) → List Event
  | [] => [event .streamEnd line]
  | entries :: documents =>
    let last := line + 1 + entries.length
    event .documentStart line :: event .mappingStart (line + 1) ::
      (entriesEvents (line + 1) entries ++
        event .mappingEnd last :: event .documentEnd last :: streamEvents last documents)

variable {tokens : List Token} {stack : List Phase} {handles : List (List Char)}

theorem yields_value {entry : String × String} :
    Yields ⟨⟨.value, line⟩ :: ⟨.scalar entry.2, line⟩ :: tokens, none,
        some .blockMappingValue, stack, handles⟩
      [scalar entry.2 line] ⟨tokens, none, some .blockMappingKey, stack, handles⟩ :=
  yields_step rfl rfl

theorem yields_entry {entry : String × String} :
    Yields ⟨entryTokens line entry ++ tokens, none, some .blockMappingKey, stack, handles⟩
      (entryEvents line entry) ⟨tokens, none, some .blockMappingKey, stack, handles⟩ :=
  (yields_step rfl rfl).trans yields_value

/-- The first entry, with the beginning of its mapping. -/
theorem yields_first {entry : String × String} :
    Yields ⟨⟨.blockMappingStart, line⟩ :: (entryTokens line entry ++ tokens), none,
        some .documentContent, stack, handles⟩
      (event .mappingStart line :: entryEvents line entry)
      ⟨tokens, none, some .blockMappingKey, stack, handles⟩ := by
  have begins : Yields ⟨⟨.blockMappingStart, line⟩ :: (entryTokens line entry ++ tokens), none,
      some .documentContent, stack, handles⟩ [event .mappingStart line]
      ⟨⟨.blockMappingStart, line⟩ :: (entryTokens line entry ++ tokens), none,
        some .blockMappingFirst, stack, handles⟩ :=
    yields_step rfl rfl
  exact begins.trans ((yields_step rfl rfl).trans yields_value)

theorem yields_entries :
    Yields ⟨entriesTokens line entries ++ tokens, none, some .blockMappingKey, stack, handles⟩
      (entriesEvents line entries) ⟨tokens, none, some .blockMappingKey, stack, handles⟩ := by
  induction entries generalizing line with
  | nil => exact fun _ _ => rfl
  | cons entry entries ih =>
    rw [entriesTokens, List.append_assoc]
    exact yields_entry.trans ih

/-- A mapping that is all that its document holds. -/
theorem yields_mapping (nonempty : entries ≠ []) :
    Yields ⟨⟨.blockMappingStart, line⟩ :: (entriesTokens line entries ++
        ⟨.blockEnd, line + entries.length⟩ :: tokens), none, some .documentContent,
        .documentEnd :: stack, handles⟩
      (event .mappingStart line :: (entriesEvents line entries ++
        [event .mappingEnd (line + entries.length)]))
      ⟨tokens, none, some .documentEnd, stack, handles⟩ := by
  cases entries with
  | nil => contradiction
  | cons entry entries =>
    rw [entriesTokens, entriesEvents, List.append_assoc, List.append_assoc]
    exact yields_first.trans (yields_entries.trans (yields_step rfl rfl))

theorem yields_documents {phase : Phase} (nonempty : ∀ entries ∈ documents, entries ≠ [])
    (opens : phase = .firstDocument ∨ phase = .documentStart) :
    Yields ⟨streamTokens false line documents, none, some phase, [], standardHandles⟩
      (streamEvents line documents) ⟨[], none, none, [], standardHandles⟩ := by
  induction documents generalizing line phase with
  | nil =>
    rcases opens with rfl | rfl
    · exact yields_step rfl rfl
    · exact yields_step rfl rfl
  | cons entries documents ih =>
    obtain ⟨here, later⟩ := List.forall_mem_cons.mp nonempty
    have begins (tokens : List Token) : Yields
        ⟨⟨.documentStart, line⟩ :: tokens, none, some phase, [], standardHandles⟩
        [event .documentStart line]
        ⟨tokens, none, some .documentContent, [.documentEnd], standardHandles⟩ := by
      rcases opens with rfl | rfl
      · exact yields_step rfl rfl
      · exact yields_step rfl rfl
    have ends (last : Nat) : Yields
        ⟨streamTokens false last documents, none, some .documentEnd, [], standardHandles⟩
        [event .documentEnd last]
        ⟨streamTokens false last documents, none, some .documentStart, [], standardHandles⟩ := by
      cases documents with
      | nil => exact yields_step rfl rfl
      | cons entries documents => exact yields_step rfl rfl
    have all := (begins _).trans ((@yields_mapping entries (line + 1) _ _ _ here).trans
      ((ends (line + 1 + entries.length)).trans (ih later (Or.inr rfl))))
    rw [streamTokens, streamTokens_true]
    simpa only [streamEvents, List.singleton_append, List.append_assoc, List.cons_append,
      List.nil_append, closing, Bool.false_eq_true, ↓reduceIte] using all

theorem length_entriesTokens : (entriesTokens line entries).length = 4 * entries.length := by
  induction entries generalizing line with
  | nil => rfl
  | cons entry entries ih =>
    rw [entriesTokens, List.length_append, ih, List.length_cons, entryTokens]
    simp only [List.length_cons, List.length_nil]
    omega

theorem length_entriesEvents : (entriesEvents line entries).length = 2 * entries.length := by
  induction entries generalizing line with
  | nil => rfl
  | cons entry entries ih =>
    rw [entriesEvents, List.length_append, ih, List.length_cons, entryEvents]
    simp only [List.length_cons, List.length_nil]
    omega

theorem length_streamEvents (inMapping : Bool) :
    (streamEvents line documents).length ≤ 2 * (streamTokens inMapping line documents).length := by
  induction documents generalizing line inMapping with
  | nil =>
    rw [streamEvents, streamTokens, List.length_append]
    simp only [List.length_singleton]
    omega
  | cons entries documents ih =>
    have later := @ih (line + 1 + entries.length) true
    rw [streamEvents, streamTokens]
    simp only [List.length_append, List.length_cons, length_entriesTokens, length_entriesEvents]
    omega

end Parser

open MemoryBoard.Yaml.Parser

/-- The events of a text of documents with a mapping each. -/
theorem Source.read_documents (nonempty : ∀ entries ∈ documents, entries ≠ [])
    (valid : ∀ entries ∈ documents, ∀ entry ∈ entries, IsEntry entry) :
    (⟨documents.flatMap documentText, none⟩ : Source).read =
      ⟨event .streamStart 0 :: streamEvents 0 documents, none⟩ := by
  have begins : Yields ⟨⟨.streamStart, 0⟩ :: streamTokens false 0 documents, none,
      some .streamStart, [], standardHandles⟩ [event .streamStart 0]
      ⟨streamTokens false 0 documents, none, some .firstDocument, [], standardHandles⟩ :=
    yields_step rfl rfl
  have all := begins.trans (yields_documents nonempty (Or.inl rfl))
  have short := @length_streamEvents documents 0 false
  have parsed : eventsFrom (8 * ((streamTokens false 0 documents).length + 1 + 2))
      ⟨⟨.streamStart, 0⟩ :: streamTokens false 0 documents, none, some .streamStart, [],
        standardHandles⟩ [] = (event .streamStart 0 :: streamEvents 0 documents, none) := by
    obtain ⟨left, enough⟩ : ∃ left, 8 * ((streamTokens false 0 documents).length + 1 + 2) =
        left + 1 + ([event .streamStart 0] ++ streamEvents 0 documents).length := by
      rw [List.length_append, List.length_singleton]
      exact ⟨8 * ((streamTokens false 0 documents).length + 1 + 2) - 1 -
        (1 + (streamEvents 0 documents).length), by omega⟩
    rw [enough, all (left + 1) [], List.append_nil]
    exact congrArg (Prod.mk · none) (List.reverse_reverse _)
  rw [read, tokens_documents nonempty valid]
  exact congrArg (fun outcome => Reading.mk outcome.1 outcome.2) parsed

/-- Characters that stand in a text as they are, wherever it comes from. -/
def IsOrdinary (c : Char) : Prop :=
  c = '\n' ∨ 0x20 ≤ c.toNat ∧ c.toNat ≤ 0x7e

theorem isOrdinary_of_isLetter {c : Char} (letter : isLetter c = true) : IsOrdinary c := by
  simp only [isLetter, Bool.and_eq_true, decide_eq_true_eq] at letter
  obtain ⟨⟨⟨low, high⟩, _⟩, _⟩ := letter
  exact Or.inr ⟨Nat.le_of_lt low, high⟩

theorem IsOrdinary.isPlainAscii {c : Char} (ordinary : IsOrdinary c) : Text.IsPlainAscii c := by
  rcases ordinary with rfl | ⟨low, high⟩
  · exact ⟨by decide, by decide⟩
  · refine ⟨by omega, ?_⟩
    rintro rfl
    exact absurd low (by decide)

theorem IsOrdinary.isAllowed {c : Char} (ordinary : IsOrdinary c) : isAllowed c = true := by
  rcases ordinary with rfl | ⟨low, high⟩
  · rfl
  · simp [Yaml.isAllowed, low, high]

theorem isOrdinary_documents (valid : ∀ entries ∈ documents, ∀ entry ∈ entries, IsEntry entry) :
    ∀ c ∈ documents.flatMap documentText, IsOrdinary c := by
  have mark : ∀ c ∈ ['-', ':', ' ', '\n'], IsOrdinary c := by
    simp [IsOrdinary]
  simp only [List.forall_mem_cons] at mark
  obtain ⟨dash, colon, space, feed, _⟩ := mark
  intro c member
  simp only [documentText, entryText, List.mem_flatMap, List.mem_cons, List.mem_append,
    List.not_mem_nil, or_false] at member
  obtain ⟨entries, among, rfl | rfl | rfl | rfl | ⟨entry, inside, key | rfl | rfl | text | rfl⟩⟩ :=
    member
  · exact dash
  · exact dash
  · exact dash
  · exact feed
  · exact isOrdinary_of_isLetter ((valid entries among entry inside).key.letters c key)
  · exact colon
  · exact space
  · exact isOrdinary_of_isLetter ((valid entries among entry inside).text.letters c text)
  · exact feed

variable {text : String}

theorem Source.ofText_ordinary (ordinary : ∀ c ∈ text.toList, IsOrdinary c) :
    Source.ofText text = ⟨text.toList, none⟩ := by
  have allowed : text.toList.all Yaml.isAllowed = true :=
    List.all_eq_true.mpr fun c member => (ordinary c member).isAllowed
  rw [ofText, if_pos allowed]

/-- A file that holds such a text is the same to a reader as the text itself. -/
theorem Source.ofFile_ordinary (ordinary : ∀ c ∈ text.toList, IsOrdinary c) :
    Source.ofFile (Text.encodeUtf8 text.toList) = Source.ofText text := by
  have plain : ∀ c ∈ text.toList, Text.IsPlainAscii c :=
    fun c member => (ordinary c member).isPlainAscii
  have allowed : text.toList.all Yaml.isAllowed = true :=
    List.all_eq_true.mpr fun c member => (ordinary c member).isAllowed
  have loaded : Text.Source.ofFileInLoads loadSize (Text.encodeUtf8 text.toList) =
      ⟨text.toList, none⟩ := by
    rw [Text.Source.ofFileInLoads, Text.decodeUtf8, Text.decodeUtf8From_encodeUtf8 plain,
      List.reverse_nil, List.nil_append]
    simp only [Text.unifyLineEnds_of_plain plain, List.reverse_nil, List.nil_append]
  rw [ofText_ordinary ordinary, ofFile, loaded]
  simp only [allowed, ↓reduceIte]

end MemoryBoard.Yaml
