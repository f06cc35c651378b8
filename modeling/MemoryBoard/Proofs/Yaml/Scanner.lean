import MemoryBoard.Proofs.Yaml.Plain

set_option autoImplicit false

namespace MemoryBoard.Yaml.Scanner

variable {scanner after : Scanner} {tokens others : List Token} {rounds more : Nat}

theorem run_reading {α : Type} {reader : Reader α} {value : α} {cursor : Cursor}
    (ran : reader.run scanner.cursor = .ok (value, cursor)) :
    (reading reader).run scanner = .ok (value, { scanner with cursor }) := by
  rw [reading, run_get_bind, ran]
  rfl

/-- Nothing is given up as long as it is not too late for any candidate. -/
theorem run_dropStale (fresh : ∀ candidate ∈ scanner.candidates,
    KeyCandidate.isStale candidate scanner.cursor = false) :
    dropStale.run scanner = .ok ((), scanner) := by
  have stale : scanner.candidates.filter (KeyCandidate.isStale · scanner.cursor) = [] := by
    rw [List.filter_eq_nil_iff]
    intro candidate member
    rw [fresh candidate member]
    exact Bool.false_ne_true
  have left : scanner.candidates.filter (not ∘ (KeyCandidate.isStale · scanner.cursor)) =
      scanner.candidates := by
    rw [List.filter_eq_self]
    intro candidate member
    exact Bool.not_eq_true' _ ▸ fresh candidate member
  rw [dropStale, run_get_bind, List.partition_eq_filter_filter, stale, left]
  rfl

theorem run_unwind {column : Int} (level : scanner.indent ≤ column) :
    (unwind column).run scanner = .ok ((), scanner) := by
  rw [unwind, run_get_bind]
  split
  · rw [unwindFrom, run_get_bind, if_neg (by omega)]
    rfl
  · rfl

theorem run_skipByteOrderMark (whole : scanner.cursor.ending = none)
    (unmarked : (scanner.cursor.rest.getD 0 endMark == '\ufeff') = false) :
    skipByteOrderMark.run scanner = .ok ((), scanner) := by
  rw [skipByteOrderMark, run_get_bind]
  split
  · rw [run_bind_of_run (run_reading (Reader.run_peek whole 0)), unmarked]
    rfl
  · rfl

/-- A token is taken from where the blanks in front of it end. -/
theorem run_fetch (scanner : Scanner) (whole : scanner.cursor.ending = none)
    (unmarked : (scanner.cursor.rest.getD 0 endMark == '\ufeff') = false)
    (skips : (skipToToken (scanner.cursor.size + 1)).run scanner = .ok ((), after))
    (remains : after.cursor.ending = none)
    (fresh : ∀ candidate ∈ after.candidates, KeyCandidate.isStale candidate after.cursor = false)
    (level : after.indent ≤ after.cursor.column) :
    fetch.run scanner = (fetchToken (after.cursor.rest.getD 0 endMark)).run after := by
  have fuel : (reading Scalar.rounds).run scanner = .ok (scanner.cursor.size + 1, scanner) := rfl
  rw [fetch, run_bind_of_run (run_skipByteOrderMark whole unmarked), run_bind_of_run fuel,
    run_bind_of_run skips, run_bind_of_run (run_dropStale fresh), run_get_bind,
    run_bind_of_run (run_unwind level),
    run_bind_of_run (run_reading (Reader.run_peek remains 0))]

/-- Whether so many rounds at most lead from one scanner to another and hand on some tokens. -/
def Hands (scanner : Scanner) (tokens : List Token) (after : Scanner) (rounds : Nat) : Prop :=
  ∃ count ≤ rounds, ∀ fuel done, tokensFrom (fuel + count) scanner done =
    tokensFrom fuel after (tokens.reverse ++ done)

theorem Hands.trans {between : Scanner} (first : Hands scanner tokens between rounds)
    (second : Hands between others after more) :
    Hands scanner (tokens ++ others) after (rounds + more) := by
  obtain ⟨before, early, first⟩ := first
  obtain ⟨behind, late, second⟩ := second
  refine ⟨behind + before, by omega, fun fuel done => ?_⟩
  rw [← Nat.add_assoc, first, second, List.reverse_append, List.append_assoc]

theorem Hands.mono (hands : Hands scanner tokens after rounds) (bound : rounds ≤ more) :
    Hands scanner tokens after more := by
  obtain ⟨count, few, runs⟩ := hands
  exact ⟨count, Nat.le_trans few bound, runs⟩

/-- With more rounds to go than it takes, the others are left. -/
theorem Hands.tokensFrom_eq {fuel : Nat} (hands : Hands scanner tokens after rounds)
    (enough : rounds ≤ fuel) (done : List Token) : ∃ left, fuel ≤ left + rounds ∧
      tokensFrom fuel scanner done = tokensFrom left after (tokens.reverse ++ done) := by
  obtain ⟨count, few, runs⟩ := hands
  have same : fuel = fuel - count + count := by
    omega
  refine ⟨fuel - count, by omega, ?_⟩
  rw [← runs, ← same]

theorem hands_none : Hands scanner [] scanner 0 :=
  ⟨0, Nat.le_refl 0, fun _ _ => rfl⟩

theorem hands_fetch (needed : needsMore.run scanner = .ok (true, scanner))
    (fetched : fetch.run scanner = .ok ((), after)) : Hands scanner [] after 1 := by
  refine ⟨1, Nat.le_refl 1, fun fuel done => ?_⟩
  rw [tokensFrom]
  simp only [needed, fetched]
  rfl

theorem hands_token {token : Token} {waiting : List Token}
    (enough : needsMore.run scanner = .ok (false, scanner))
    (first : scanner.waiting = token :: waiting) :
    Hands scanner [token] { scanner with waiting, taken := scanner.taken + 1 } 1 := by
  refine ⟨1, Nat.le_refl 1, fun fuel done => ?_⟩
  rw [tokensFrom]
  simp only [enough, first]
  rfl

/-- Without a candidate for a key nothing can be put in front of a waiting token any more. -/
theorem run_needsMore {token : Token} {waiting : List Token} (settled : scanner.candidates = [])
    (first : scanner.waiting = token :: waiting) :
    needsMore.run scanner = .ok (false, scanner) := by
  have fresh : ∀ candidate ∈ scanner.candidates,
      KeyCandidate.isStale candidate scanner.cursor = false := by
    rw [settled]
    nofun
  rw [needsMore, run_get_bind]
  split
  · rfl
  · rw [first, List.isEmpty_cons, if_neg Bool.false_ne_true,
      run_bind_of_run (run_dropStale fresh), run_get_bind, settled]
    rfl

theorem hands_waiting {waiting : List Token} (settled : scanner.candidates = [])
    (front : scanner.waiting = tokens ++ waiting) :
    Hands scanner tokens { scanner with waiting, taken := scanner.taken + tokens.length }
      tokens.length := by
  induction tokens generalizing scanner with
  | nil =>
    cases scanner
    cases front
    exact hands_none
  | cons token tokens ih =>
    have here := hands_token (run_needsMore settled front) front
    have later := here.trans
      (@ih { scanner with waiting := tokens ++ waiting, taken := scanner.taken + 1 } settled rfl)
    simpa only [List.singleton_append, Nat.add_comm 1, List.length_cons, Nat.add_assoc] using later

/-- What a round brings is handed on where no key can be put in front of it. -/
theorem hands_fetched (needed : needsMore.run scanner = .ok (true, scanner))
    (fetched : fetch.run scanner = .ok ((), { after with waiting := tokens }))
    (settled : after.candidates = []) (empty : after.waiting = []) :
    Hands scanner tokens { after with taken := after.taken + tokens.length }
      (1 + tokens.length) := by
  cases after
  cases settled
  cases empty
  exact (hands_fetch needed fetched).trans (hands_waiting rfl (List.append_nil _).symm)

variable {rest : List Char} {size index line column : Nat}

theorem run_skipToToken_bare (whole : scanner.cursor.ending = none)
    (bare : IsBare scanner.cursor.rest) (fuel : Nat) :
    (skipToToken (fuel + 1)).run scanner = .ok ((), scanner) := by
  rw [skipToToken, run_bind_of_run (run_reading (run_skipSpaces_bare whole bare)),
    run_bind_of_run (run_reading (run_skipComment_bare whole bare)),
    run_bind_of_run (run_reading (run_lineBreak_bare whole bare))]
  rfl

theorem run_skipToToken_space (bare : IsBare rest) (fuel : Nat)
    (here : scanner.cursor = ⟨' ' :: rest, none, size, index, line, column⟩) :
    (skipToToken (fuel + 1)).run scanner =
      .ok ((), { scanner with cursor := ⟨rest, none, size, index + 1, line, column + 1⟩ }) := by
  have spaces : Reader.skipSpaces.run scanner.cursor =
      .ok ((), ⟨rest, none, size, index + 1, line, column + 1⟩) := by
    rw [here]
    exact run_skipSpaces_space bare
  rw [skipToToken, run_bind_of_run (run_reading spaces),
    run_bind_of_run (run_reading (run_skipComment_bare rfl bare)),
    run_bind_of_run (run_reading (run_lineBreak_bare rfl bare))]
  rfl

end MemoryBoard.Yaml.Scanner
