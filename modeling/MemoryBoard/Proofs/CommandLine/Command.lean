import MemoryBoard.CommandLine.Command
import MemoryBoard.Proofs.CommandLine.Options
import MemoryBoard.Proofs.Scan.Number

set_option autoImplicit false

namespace MemoryBoard

theorem Scan.addressRange_le {text : String} {first last : Nat}
    (read : Scan.addressRange text = .ok (first, last)) : first ≤ last := by
  obtain ⟨_, _, _, _, _, _, order⟩ := addressRange_eq_ok.mp read
  exact order

namespace CommandLine

theorem addressTotal?_pos {text : String} {count : Nat} (read : addressTotal? text = some count) :
    0 < count := by
  unfold addressTotal? at read
  split at read
  · split at read
    · rename_i bounds
      cases read
      exact bounds.1
    · cases read
  · cases read

/-- Whether some address lies in an extent. -/
def Extent.Proper : Extent → Prop
  | .range (.value (first, last)) => first ≤ last
  | .range .void => True
  | .count (.value total) => 0 < total
  | .count .void => True

namespace ConvertDraft

/-- What every option of a conversion keeps. -/
def Proper (draft : ConvertDraft) : Prop :=
  ∀ extent, draft.extent = some extent → extent.Proper

theorem setRange_proper {draft after : ConvertDraft} {argument : Argument String}
    (set : draft.setRange argument = some after) : after.Proper := by
  cases argument with
  | void =>
    simp only [setRange, Argument.read?_void, Option.bind_eq_bind, Option.bind_some] at set
    split at set
    · cases set
    · cases set
      rintro _ ⟨rfl⟩
      trivial
  | value text =>
    simp only [setRange, Argument.read?_value, Option.bind_eq_bind, Option.bind_eq_some_iff,
      Option.map_eq_some_iff] at set
    obtain ⟨_, ⟨⟨first, last⟩, read, rfl⟩, set⟩ := set
    split at set
    · cases set
    · cases set
      rintro _ ⟨rfl⟩
      cases scanned : Scan.addressRange text with
      | error error =>
        rw [scanned] at read
        cases read
      | ok bounds =>
        rw [scanned] at read
        cases read
        exact Scan.addressRange_le scanned

theorem setCount_proper {draft after : ConvertDraft} {argument : Argument String}
    (set : draft.setCount argument = some after) : after.Proper := by
  cases argument with
  | void =>
    simp only [setCount, Argument.read?_void, Option.bind_eq_bind, Option.bind_some] at set
    split at set
    · cases set
    · cases set
      rintro _ ⟨rfl⟩
      trivial
  | value text =>
    simp only [setCount, Argument.read?_value, Option.bind_eq_bind, Option.bind_eq_some_iff,
      Option.map_eq_some_iff] at set
    obtain ⟨_, ⟨count, read, rfl⟩, set⟩ := set
    split at set
    · cases set
    · cases set
      rintro _ ⟨rfl⟩
      exact addressTotal?_pos read

theorem options_keep : ∀ spec ∈ options, spec.Keeps Proper := by
  have kept {take : ConvertDraft → Argument String → Option ConvertDraft} (long : String)
      (short : Option Char) (keeps : ∀ draft argument after, draft.Proper →
        take draft argument = some after → after.Proper) :
      (⟨long, short, .value take⟩ : OptionSpec ConvertDraft).Keeps Proper := by
    intro argument draft after proper applied
    cases argument with
    | none => cases applied
    | some argument =>
      cases taken : take draft argument with
      | none => simp [OptionSpec.apply, taken, Outcome.ofOption] at applied
      | some result =>
        simp only [OptionSpec.apply, taken, Outcome.ofOption, Outcome.use.injEq] at applied
        rw [← applied]
        exact keeps draft argument result proper taken
  intro spec member
  simp only [options, List.mem_cons, List.not_mem_nil, or_false] at member
  rcases member with rfl | rfl | rfl | rfl | rfl | rfl | rfl | rfl
  · refine kept _ _ fun draft argument after proper set => ?_
    unfold setFile at set
    split at set
    · cases set
    · cases set
      exact proper
  · refine kept _ _ fun draft argument after proper set => ?_
    unfold setText at set
    split at set
    · cases set
    · cases set
      exact proper
  · refine kept _ _ fun draft argument after proper set => ?_
    obtain ⟨_, _, set⟩ := Option.bind_eq_some_iff.mp set
    cases set
    exact proper
  · refine kept _ _ fun draft argument after proper set => ?_
    obtain ⟨_, _, set⟩ := Option.bind_eq_some_iff.mp set
    cases set
    exact proper
  · exact kept _ _ fun _ _ _ _ set => setRange_proper set
  · exact kept _ _ fun _ _ _ _ set => setCount_proper set
  · refine kept _ _ fun draft argument after proper set => ?_
    obtain ⟨_, _, set⟩ := Option.bind_eq_some_iff.mp set
    cases set
    exact proper
  · refine kept _ _ fun draft argument after proper set => ?_
    cases set
    exact proper

theorem finish_eq_some {draft : ConvertDraft} {command : Command}
    (finished : draft.finish = some command) :
    ∃ input, draft.input = some input ∧
      command = .convert ⟨input, draft.format, draft.start, draft.extent, draft.target,
        draft.output⟩ := by
  obtain ⟨input, given, rest⟩ := Option.bind_eq_some_iff.mp finished
  cases rest
  exact ⟨input, given, rfl⟩

end ConvertDraft

theorem Outcome.ofOption_eq_use {α : Type} {option : Option α} {value : α} :
    Outcome.ofOption option = .use value ↔ option = some value := by
  cases option with
  | none =>
    constructor
    · intro impossible
      cases impossible
    · intro impossible
      cases impossible
  | some other => rw [ofOption, Outcome.use.injEq, Option.some.injEq]

/-- Only the command of that name reads a conversion. -/
theorem read_convert {name : String} {form : CommandForm} {words : List String}
    {options : ConvertOptions} (named : commandNamed? name = some form)
    (read : form.read words = .use (.convert options)) :
    ∃ draft : ConvertDraft, draft.Proper ∧ draft.finish = some (.convert options) := by
  obtain ⟨draft, collected, finished⟩ := Outcome.bind_eq_use.mp read
  replace finished := Outcome.ofOption_eq_use.mp finished
  unfold commandNamed? at named
  split at named
  · cases named
    refine ⟨draft, readOptions_keeps ConvertDraft.options_keep ?_ collected, finished⟩
    rintro _ ⟨⟩
  · cases named
    obtain ⟨_, _, impossible⟩ := Option.bind_eq_some_iff.mp finished
    cases impossible
  · cases named
    obtain ⟨_, _, impossible⟩ := Option.bind_eq_some_iff.mp finished
    cases impossible
  · cases named
    obtain ⟨_, _, impossible⟩ := Option.bind_eq_some_iff.mp finished
    cases impossible
  · cases named

/-- A conversion on a command line asks for one address at least. -/
theorem readCommand_extent {words : List String} {options : ConvertOptions} {extent : Extent}
    (read : readCommand words = .use (.convert options)) (given : options.extent = some extent) :
    extent.Proper := by
  cases words with
  | nil => cases read
  | cons word rest =>
    rw [readCommand] at read
    split at read
    · split at read
      · cases read
      · rename_i form named
        obtain ⟨draft, proper, finished⟩ := read_convert named read
        obtain ⟨_, _, same⟩ := ConvertDraft.finish_eq_some finished
        cases same
        exact proper extent given
    · cases read
    · split at read <;> cases read
    · cases read

end CommandLine

end MemoryBoard
