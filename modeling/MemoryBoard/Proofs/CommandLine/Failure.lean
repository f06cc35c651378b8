import MemoryBoard.Proofs.CommandLine.Session

set_option autoImplicit false

namespace MemoryBoard.CommandLine.Session

variable {α β ε : Type} {world after : World} {failure : Failure}

/-- An action that fails in a world, with the failure and the world it leaves. -/
def Fails (action : Session α) (world : World) (failure : Failure) (after : World) : Prop :=
  action.run.run world = (.error failure, after)

theorem fails_pure {value : α} : Fails (pure value) world failure after ↔ False := by
  constructor
  · intro failed
    cases failed
  · exact False.elim

/-- Of two steps the first fails, or the second from where the first has led. -/
theorem fails_bind {first : Session α} {next : α → Session β} :
    Fails (first >>= next) world failure after ↔
      Fails first world failure after ∨
        ∃ value between, Ends first world value between ∧
          Fails (next value) between failure after := by
  unfold Fails Ends
  rw [run_bind]
  rcases first.run.run world with ⟨result, between⟩
  cases result with
  | ok value =>
    constructor
    · intro failed
      exact Or.inr ⟨value, between, rfl, failed⟩
    · rintro (impossible | ⟨_, _, same, failed⟩)
      · cases impossible
      · cases same
        exact failed
  | error reason =>
    constructor
    · intro failed
      cases failed
      exact Or.inl rfl
    · rintro (failed | ⟨_, _, impossible, _⟩)
      · cases failed
        rfl
      · cases impossible

theorem fails_fail {reason : Failure} :
    Fails (fail reason : Session α) world failure after ↔ failure = reason ∧ after = world := by
  constructor
  · intro failed
    cases failed
    exact ⟨rfl, rfl⟩
  · rintro ⟨rfl, rfl⟩
    rfl

theorem fails_lift {wrap : ε → Failure} {outcome : Except ε α} :
    Fails (lift wrap outcome) world failure after ↔
      ∃ error, outcome = .error error ∧ failure = wrap error ∧ after = world := by
  cases outcome with
  | ok value => simp only [lift, fails_pure, reduceCtorEq, false_and, exists_false]
  | error error =>
    simp only [lift, fails_fail, Except.error.injEq, exists_eq_left']

theorem fails_demand {cause : Defect} {argument : Argument α} :
    Fails (demand cause argument) world failure after ↔
      argument = .void ∧ failure = .defect cause ∧ after = world := by
  cases argument with
  | void => simp only [demand, fails_fail, true_and]
  | value value => simp only [demand, fails_pure, reduceCtorEq, false_and]

theorem fails_get : Fails (get : Session World) world failure after ↔ False := by
  constructor
  · intro failed
    cases failed
  · exact False.elim

theorem fails_modify {change : World → World} :
    Fails (modify change : Session Unit) world failure after ↔ False := by
  constructor
  · intro failed
    cases failed
  · exact False.elim

theorem fails_report {entries : List LogEntry} :
    Fails (report entries) world failure after ↔ False :=
  fails_modify

theorem fails_print {text : Text.CodeText} : Fails (print text) world failure after ↔ False :=
  fails_modify

theorem fails_appendFile {path : Path} {bytes : Bytes} :
    Fails (appendFile path bytes) world failure after ↔ False :=
  fails_modify

theorem fails_readFile {path : Path} : Fails (readFile path) world failure after ↔
    ∃ error, world.tree.read path = .error error ∧ failure = .file error ∧ after = world := by
  simp only [readFile, fails_bind, fails_get, ends_get, fails_lift, false_or, and_assoc,
    exists_and_left, exists_eq_left]

theorem fails_createFile {path : Path} : Fails (createFile path) world failure after ↔
    ∃ error, world.tree.create path = .error error ∧ failure = .file error ∧ after = world := by
  simp only [createFile, fails_bind, fails_get, ends_get, fails_lift, fails_modify, false_or,
    and_false, exists_false, or_false, and_assoc, exists_and_left, exists_eq_left]

theorem fails_report_bind {entries : List LogEntry} {next : Unit → Session β} :
    Fails (report entries >>= next) world failure after ↔
      Fails (next ()) { world with log := entries.foldl Array.push world.log } failure after := by
  simp only [fails_bind, fails_report, ends_report, false_or, exists_eq_left]
  exact ⟨fun ⟨_, failed⟩ => failed, fun failed => ⟨(), failed⟩⟩

end MemoryBoard.CommandLine.Session
