set_option autoImplicit false

namespace MemoryBoard

variable {α β ε : Type} {first : Except ε α} {second : α → Except ε β}

theorem bind_eq_ok {result : β} : first >>= second = .ok result ↔
    ∃ value, first = .ok value ∧ second value = .ok result := by
  cases first with
  | error error => simp [bind, Except.bind]
  | ok value => simp [bind, Except.bind]

theorem bind_eq_error {error : ε} : first >>= second = .error error ↔
    first = .error error ∨ ∃ value, first = .ok value ∧ second value = .error error := by
  cases first with
  | error other => simp [bind, Except.bind]
  | ok value => simp [bind, Except.bind]

theorem toOption_eq_some {value : α} : first.toOption = some value ↔ first = .ok value := by
  cases first with
  | error error => simp [Except.toOption]
  | ok other => simp [Except.toOption]

/-- Results that are all there are had together. -/
theorem mapM_map_ok (values : List α) :
    (values.map (Except.ok : α → Except ε α)).mapM id = .ok values := by
  induction values with
  | nil => rfl
  | cons value rest ih =>
    rw [List.map_cons, List.mapM_cons, ih]
    rfl

theorem mapM_id_eq_ok {outcomes : List (Except ε α)} {values : List α} :
    outcomes.mapM id = .ok values ↔ outcomes = values.map .ok := by
  constructor
  · intro success
    induction outcomes generalizing values with
    | nil =>
      cases success
      rfl
    | cons outcome rest ih =>
      rw [List.mapM_cons] at success
      obtain ⟨value, here, success⟩ := bind_eq_ok.mp success
      obtain ⟨later, behind, same⟩ := bind_eq_ok.mp success
      cases same
      rw [id_eq] at here
      rw [here, ih behind, List.map_cons]
  · intro same
    rw [same, mapM_map_ok]

theorem mapM_eq_mapM_id (f : α → Except ε β) (values : List α) :
    values.mapM f = (values.map f).mapM id := by
  induction values with
  | nil => rfl
  | cons value rest ih => rw [List.map_cons, List.mapM_cons, List.mapM_cons, ih, id_eq]

/-- The first failure is the one that counts. -/
theorem mapM_id_eq_error {outcomes : List (Except ε α)} {error : ε} :
    outcomes.mapM id = .error error ↔
      ∃ index : Nat, outcomes[index]? = some (.error error) ∧
        ∀ before < index, ∃ value, outcomes[before]? = some (.ok value) := by
  induction outcomes with
  | nil =>
    constructor
    · intro impossible
      cases impossible
    · intro ⟨_, impossible, _⟩
      cases impossible
  | cons outcome rest ih =>
    rw [List.mapM_cons]
    simp only [bind_eq_error, id_eq]
    constructor
    · rintro (here | ⟨value, here, later | ⟨_, _, impossible⟩⟩)
      · refine ⟨0, ?_, fun before impossible => absurd impossible (Nat.not_lt_zero before)⟩
        rw [here, List.getElem?_cons_zero]
      · obtain ⟨index, there, earlier⟩ := ih.mp later
        refine ⟨index + 1, there, fun before bound => ?_⟩
        cases before with
        | zero => exact ⟨value, by rw [here, List.getElem?_cons_zero]⟩
        | succ before => exact earlier before (by omega)
      · cases impossible
    · intro ⟨index, there, earlier⟩
      cases index with
      | zero => exact Or.inl (Option.some.inj there)
      | succ index =>
        obtain ⟨value, here⟩ := earlier 0 (by omega)
        have later := ih.mpr ⟨index, there, fun before bound => earlier (before + 1) (by omega)⟩
        exact Or.inr ⟨value, Option.some.inj here, Or.inl later⟩

/-- Whether all errors that a computation can end with have some property. -/
def FailsWith (property : ε → Prop) (outcome : Except ε α) : Prop :=
  ∀ error, outcome = .error error → property error

variable {property : ε → Prop}

theorem FailsWith.ok (value : α) : FailsWith property (.ok value) :=
  nofun

theorem FailsWith.error {error : ε} (holds : property error) :
    FailsWith property (.error error : Except ε α) := by
  intro other same
  cases same
  exact holds

theorem FailsWith.bind (before : FailsWith property first)
    (behind : ∀ value, FailsWith property (second value)) :
    FailsWith property (first >>= second) := by
  intro error failed
  rcases bind_eq_error.mp failed with early | ⟨value, _, late⟩
  · exact before error early
  · exact behind value error late

section

variable {σ : Type} {state after : σ} {value : α}

theorem run_bind_of_run {action : StateT σ (Except ε) α} {next : α → StateT σ (Except ε) β}
    (ran : action.run state = .ok (value, after)) :
    (action >>= next).run state = (next value).run after := by
  rw [StateT.run_bind, ran]
  rfl

theorem run_discard_of_run {action : StateT σ (Except ε) α}
    (ran : action.run state = .ok (value, after)) :
    (discard action).run state = .ok ((), after) := by
  change (action >>= fun _ => pure ()).run state = _
  rw [run_bind_of_run ran]
  rfl

theorem run_get_bind {next : σ → StateT σ (Except ε) β} :
    (get >>= next).run state = (next state).run state :=
  rfl

end

end MemoryBoard
