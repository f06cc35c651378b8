import MemoryBoard.CommandLine.Options

set_option autoImplicit false

namespace MemoryBoard.CommandLine

/-- Two readings can be used if the second can be with what the first gives. -/
theorem Outcome.bind_eq_use {α β : Type} {outcome : Outcome α} {next : α → Outcome β} {result : β} :
    outcome >>= next = .use result ↔ ∃ value, outcome = .use value ∧ next value = .use result := by
  cases outcome with
  | misuse =>
    rw [misuse_bind]
    constructor
    · intro impossible
      cases impossible
    · rintro ⟨_, impossible, _⟩
      cases impossible
  | help =>
    rw [help_bind]
    constructor
    · intro impossible
      cases impossible
    · rintro ⟨_, impossible, _⟩
      cases impossible
  | use value =>
    rw [use_bind]
    constructor
    · intro used
      exact ⟨value, rfl, used⟩
    · rintro ⟨_, same, used⟩
      cases same
      exact used

variable {σ : Type} {specs marks : List (OptionSpec σ)} {Holds : σ → Prop}

/-- Whether the options of a word are among those of the command. -/
def Word.Uses (specs : List (OptionSpec σ)) : Word σ → Prop
  | .option marks spec _ => (∀ mark ∈ marks, mark ∈ specs) ∧ spec ∈ specs
  | _ => True

theorem bundle_uses (known : ∀ mark ∈ marks, mark ∈ specs) (letters : List Char) :
    (bundle specs marks letters).Uses specs := by
  induction letters generalizing marks with
  | nil => trivial
  | cons letter rest ih =>
    rw [bundle]
    cases found : specs.find? (·.short = some letter) with
    | none => trivial
    | some spec =>
      have member := List.mem_of_find?_eq_some found
      have longer : ∀ mark ∈ marks ++ [spec], mark ∈ specs := by
        intro mark inside
        rcases List.mem_append.mp inside with earlier | last
        · exact known mark earlier
        · rw [List.mem_singleton.mp last]
          exact member
      simp only
      split
      · exact ⟨known, member⟩
      · split
        · exact ⟨known, member⟩
        · exact ih longer

theorem attach_uses {spec : OptionSpec σ} (member : spec ∈ specs) (isShort : Bool)
    (value : Option (List Char)) : (attach specs isShort spec value).Uses specs := by
  have none : ∀ mark ∈ ([] : List (OptionSpec σ)), mark ∈ specs := fun _ inside => by cases inside
  have one : ∀ mark ∈ [spec], mark ∈ specs := by
    intro mark inside
    rw [List.mem_singleton.mp inside]
    exact member
  cases value with
  | none => exact ⟨none, member⟩
  | some text =>
    rw [attach]
    split
    · exact ⟨none, member⟩
    · split
      · exact bundle_uses one text
      · trivial

theorem mem_of_mem_abbreviated {word : List Char} {spec : OptionSpec σ}
    {value : Option (List Char)} (abbreviates : (spec, value) ∈ abbreviated specs word) :
    spec ∈ specs := by
  unfold abbreviated at abbreviates
  split at abbreviates
  · obtain ⟨found, member, same⟩ := List.mem_map.mp abbreviates
    cases same
    exact (List.mem_filter.mp member).1
  · obtain ⟨found, member, same⟩ := List.mem_map.mp abbreviates
    cases same
    exact (List.mem_filter.mp member).1
  · cases abbreviates

theorem classify_uses (specs : List (OptionSpec σ)) (text : String) :
    (classify specs text).Uses specs := by
  have none : ∀ mark ∈ ([] : List (OptionSpec σ)), mark ∈ specs := fun _ inside => by cases inside
  unfold classify
  simp only
  split
  · trivial
  split
  · trivial
  split
  · rename_i spec found
    exact ⟨none, List.mem_of_find?_eq_some found⟩
  split
  · rename_i spec found
    split at found
    · exact attach_uses (List.mem_of_find?_eq_some found) _ _
    · cases found
  split
  · rename_i spec value only
    have member : (spec, value) ∈ abbreviated specs text.toList := by
      rw [only]
      exact List.mem_singleton_self _
    exact attach_uses (mem_of_mem_abbreviated member) _ _
  · trivial
  · split <;> trivial

theorem classifyAll_uses (specs : List (OptionSpec σ)) (texts : List String) :
    ∀ word ∈ classifyAll specs texts, word.Uses specs := by
  induction texts with
  | nil => exact fun _ inside => by cases inside
  | cons text rest ih =>
    have here := classify_uses specs text
    rw [classifyAll]
    split
    · intro word inside
      rcases List.mem_cons.mp inside with rfl | plain
      · trivial
      · obtain ⟨_, _, rfl⟩ := List.mem_map.mp plain
        trivial
    · intro word inside
      rcases List.mem_cons.mp inside with rfl | later
      · exact here
      · exact ih word later

/-- Whether an option leaves drafts as they should be. -/
def OptionSpec.Keeps (Holds : σ → Prop) (spec : OptionSpec σ) : Prop :=
  ∀ argument draft after, Holds draft → spec.apply argument draft = .use after → Holds after

theorem applyAll_keeps (keeps : ∀ mark ∈ marks, mark.Keeps Holds) {draft after : σ}
    (holds : Holds draft) (applied : OptionSpec.applyAll draft marks = .use after) :
    Holds after := by
  induction marks generalizing draft with
  | nil =>
    cases applied
    exact holds
  | cons mark rest ih =>
    obtain ⟨between, first, later⟩ := Outcome.bind_eq_use.mp applied
    exact ih (fun other inside => keeps other (List.mem_cons_of_mem mark inside))
      (keeps mark List.mem_cons_self none draft between holds first) later

/-- Reading goes on from a good draft behind the options of a word. -/
theorem option_keeps (keeps : ∀ spec ∈ specs, spec.Keeps Holds) {spec : OptionSpec σ}
    {value : Option String} (used : (Word.option marks spec value).Uses specs)
    {argument : Option (Argument String)} {draft : σ} (holds : Holds draft)
    {next : σ → Outcome σ} {after : σ}
    (applied : (do
      let draft ← OptionSpec.applyAll draft marks
      let draft ← spec.apply argument draft
      next draft) = .use after) :
    ∃ between, Holds between ∧ next between = .use after := by
  obtain ⟨known, member⟩ := used
  obtain ⟨first, marked, rest⟩ := Outcome.bind_eq_use.mp applied
  obtain ⟨between, valued, later⟩ := Outcome.bind_eq_use.mp rest
  have holdsFirst : Holds first :=
    applyAll_keeps (fun mark inside => keeps mark (known mark inside)) holds marked
  exact ⟨between, keeps spec member argument first between holdsFirst valued, later⟩

theorem collect_keeps (keeps : ∀ spec ∈ specs, spec.Keeps Holds) {words : List (Word σ)}
    (used : ∀ word ∈ words, word.Uses specs) {misplaced : Bool} {draft after : σ}
    (holds : Holds draft) (collected : collect misplaced draft words = .use after) :
    Holds after := by
  fun_induction collect misplaced draft words with
  | case1 => cases collected
  | case2 =>
    cases collected
    exact holds
  | case3 misplaced draft marks spec text rest _ ih =>
    obtain ⟨between, good, later⟩ :=
      option_keeps keeps (used _ List.mem_cons_self) holds collected
    refine ih between (fun word inside => used word ?_) good later
    exact List.mem_cons_of_mem _ (List.mem_cons_of_mem _ inside)
  | case4 => cases collected
  | case5 misplaced draft marks spec value rest _ _ ih =>
    obtain ⟨between, good, later⟩ :=
      option_keeps keeps (used _ List.mem_cons_self) holds collected
    exact ih between (fun word inside => used word (List.mem_cons_of_mem _ inside)) good later
  | case6 => cases collected
  | case7 misplaced draft word rest _ _ ih =>
    exact ih (fun other inside => used other (List.mem_cons_of_mem word inside)) holds collected

/-- What the empty draft has and every option keeps, the draft of a command line has. -/
theorem readOptions_keeps (keeps : ∀ spec ∈ specs, spec.Keeps Holds) {draft after : σ}
    (holds : Holds draft) {words : List String}
    (read : readOptions specs draft words = .use after) : Holds after := by
  unfold readOptions at read
  simp only at read
  split at read
  · cases read
  · refine collect_keeps ?_ (classifyAll_uses (.help :: specs) words) holds read
    intro spec member
    rcases List.mem_cons.mp member with rfl | own
    · intro argument draft after _ applied
      cases applied
    · exact keeps spec own

end MemoryBoard.CommandLine
