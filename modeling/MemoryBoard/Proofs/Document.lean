import MemoryBoard.Document

set_option autoImplicit false

namespace MemoryBoard.Document

open Yaml

variable {σ ε : Type} {feed : σ → Event → σ × Option ε} {done : σ → Bool} {ending : ε}
  {state next final : σ} {event : Event} {rest : List Event}

theorem not_consume_nil : ¬ consume feed done ending state [] = (final, none) := by
  intro impossible
  cases impossible

/-- The first event of an accepted stream is accepted, and unless it ends the reading so is what is
left. -/
theorem consume_cons_iff : consume feed done ending state (event :: rest) = (final, none) ↔
    ∃ next, feed state event = (next, none) ∧
      (done next = true ∧ final = next ∨
        done next = false ∧ consume feed done ending next rest = (final, none)) := by
  rw [consume]
  constructor
  · intro success
    split at success
    · cases success
    rename_i next accepted
    refine ⟨next, accepted, ?_⟩
    cases stopped : done next with
    | true =>
      simp only [stopped, ↓reduceIte] at success
      cases success
      exact Or.inl ⟨rfl, rfl⟩
    | false =>
      simp only [stopped, Bool.false_eq_true, ↓reduceIte] at success
      exact Or.inr ⟨rfl, success⟩
  · intro ⟨next, accepted, ends⟩
    rw [accepted]
    rcases ends with ⟨stopped, same⟩ | ⟨going, success⟩
    · simp only [stopped, ↓reduceIte, same]
    · simp only [going, Bool.false_eq_true, ↓reduceIte, success]

/-- Reading succeeds, with some goal, just from where what is left can follow: if that is so event
by event, and behind the last event the goal is all that is left to ask. -/
theorem consume_iff (Invariant Goal : σ → Prop) (Continues : σ → List Event → Prop)
    {events : List Event}
    (keeps : ∀ {state event next}, Invariant state → feed state event = (next, none) →
      Invariant next)
    (ended : ∀ {state events}, done state = true → (Continues state events ↔ Goal state))
    (nothing : ∀ {state}, done state = false → ¬ Continues state [])
    (onward : ∀ {state event rest}, Invariant state → done state = false →
      (Continues state (event :: rest) ↔
        ∃ next, feed state event = (next, none) ∧ Continues next rest))
    (holds : Invariant state) (going : done state = false) :
    (∃ final, consume feed done ending state events = (final, none) ∧ Goal final) ↔
      Continues state events := by
  induction events generalizing state with
  | nil =>
    constructor
    · intro ⟨final, impossible, _⟩
      exact absurd impossible not_consume_nil
    · intro continues
      exact absurd continues (nothing going)
  | cons event rest ih =>
    rw [onward holds going]
    constructor
    · intro ⟨final, success, goal⟩
      obtain ⟨next, accepted, ends⟩ := consume_cons_iff.mp success
      refine ⟨next, accepted, ?_⟩
      rcases ends with ⟨stopped, same⟩ | ⟨further, success⟩
      · rw [same] at goal
        exact (ended stopped).mpr goal
      · exact (ih (keeps holds accepted) further).mp ⟨final, success, goal⟩
    · intro ⟨next, accepted, continues⟩
      cases stopped : done next with
      | true =>
        exact ⟨next, consume_cons_iff.mpr ⟨next, accepted, Or.inl ⟨stopped, rfl⟩⟩,
          (ended stopped).mp continues⟩
      | false =>
        obtain ⟨final, success, goal⟩ := (ih (keeps holds accepted) stopped).mpr continues
        exact ⟨final, consume_cons_iff.mpr ⟨next, accepted, Or.inr ⟨stopped, success⟩⟩, goal⟩

/-- The error for events that end too early is all that depends on it. -/
theorem consume_ending (ending other : ε) (state : σ) (events : List Event) :
    (consume feed done ending state events).1 = (consume feed done other state events).1 ∧
      ((consume feed done ending state events).2 = none ↔
        (consume feed done other state events).2 = none) := by
  induction events generalizing state with
  | nil => simp [consume]
  | cons event rest ih =>
    rw [consume, consume]
    split
    · exact ⟨rfl, Iff.rfl⟩
    · split
      · exact ⟨rfl, Iff.rfl⟩
      · exact ih _

/-- Whether a key with some text stands right in front of a value with another one. -/
def HasEntry (events : List Event) (key text : Text.CodeText) : Prop :=
  ∃ first second : Event, [first, second] <:+: events ∧ first.text = key ∧ second.text = text

theorem HasEntry.append {events : List Event} {key text : Text.CodeText}
    (entry : HasEntry events key text) (more : List Event) :
    HasEntry (events ++ more) key text := by
  obtain ⟨first, second, ⟨front, back, same⟩, named, valued⟩ := entry
  refine ⟨first, second, ⟨front, back ++ more, ?_⟩, named, valued⟩
  rw [← same]
  simp only [List.append_assoc]

/-- Whether the last of some events is a key with some text. -/
def EndsIn (events : List Event) (key : Text.CodeText) : Prop :=
  ∃ front last, events = front ++ [last] ∧ last.text = key

theorem EndsIn.hasEntry {events : List Event} {key : Text.CodeText} (ends : EndsIn events key)
    (value : Event) (rest : List Event) : HasEntry (events ++ value :: rest) key value.text := by
  obtain ⟨front, last, rfl, named⟩ := ends
  exact ⟨last, value, ⟨front, rest, by simp⟩, named, rfl⟩

/-- The events that a reader accepts, up to the first that it rejects or the one that ends the
reading. -/
def taken (feed : σ → Event → σ × Option ε) (done : σ → Bool) : σ → List Event → List Event
  | _, [] => []
  | state, event :: rest =>
    match feed state event with
    | (_, some _) => []
    | (next, none) => event :: if done next then [] else taken feed done next rest

/-- What accepted events keep, and a rejected one leaves alone, holds after the reading of all the
events up to there. -/
theorem consume_invariant {Invariant : σ → List Event → Prop} {past events : List Event}
    (accepts : ∀ state event next past, Invariant state past → feed state event = (next, none) →
      Invariant next (past ++ [event]))
    (rejects : ∀ state event next error past, Invariant state past →
      feed state event = (next, some error) → Invariant next past)
    (start : Invariant state past) :
    Invariant (consume feed done ending state events).1
      (past ++ taken feed done state events) := by
  induction events generalizing state past with
  | nil =>
    rw [consume, taken, List.append_nil]
    exact start
  | cons event rest ih =>
    rcases fed : feed state event with ⟨next, outcome⟩
    cases outcome with
    | some error =>
      simp only [consume, taken, fed, List.append_nil]
      exact rejects state event next error past start fed
    | none =>
      have kept := accepts state event next past start fed
      cases stopped : done next with
      | true =>
        simp only [consume, taken, fed, stopped, ↓reduceIte]
        exact kept
      | false =>
        have later := ih kept
        rw [List.append_assoc, List.singleton_append] at later
        simp only [consume, taken, fed, stopped, Bool.false_eq_true, ↓reduceIte]
        exact later

/-- Where reading fails the events have ended, or one of them was rejected in a state that the ones
before it have led to. -/
theorem consume_rejected {Invariant : σ → List Event → Prop} {past events : List Event} {error : ε}
    (accepts : ∀ state event next past, Invariant state past → feed state event = (next, none) →
      Invariant next (past ++ [event]))
    (start : Invariant state past)
    (failed : consume feed done ending state events = (final, some error)) :
    error = ending ∨ ∃ before between event rest, events = between ++ event :: rest ∧
      Invariant before (past ++ between) ∧ feed before event = (final, some error) := by
  induction events generalizing state past with
  | nil =>
    cases failed
    exact Or.inl rfl
  | cons event rest ih =>
    rw [consume] at failed
    rcases fed : feed state event with ⟨next, outcome⟩
    rw [fed] at failed
    cases outcome with
    | some reason =>
      cases failed
      refine Or.inr ⟨state, [], event, rest, rfl, ?_, fed⟩
      rwa [List.append_nil]
    | none =>
      simp only at failed
      split at failed
      · cases failed
      · have onward := accepts state event next past start fed
        rcases ih onward failed with ended | ⟨before, between, other, later, rfl, holds, rejected⟩
        · exact Or.inl ended
        · refine Or.inr ⟨before, event :: between, other, later, rfl, ?_, rejected⟩
          rwa [← List.append_cons] at holds

section

variable {ι : Type} {take : σ → ι → σ × Option ε} {inputs : List ι}

/-- Where a reader stands that went on whether its inputs were accepted or not. -/
def takeAll (take : σ → ι → σ × Option ε) (state : σ) (inputs : List ι) : σ :=
  inputs.foldl (fun state input => (take state input).1) state

@[simp] theorem takeAll_nil : takeAll take state [] = state := rfl

@[simp] theorem takeAll_cons {input : ι} :
    takeAll take state (input :: inputs) = takeAll take (take state input).1 inputs := rfl

theorem takeAll_invariant {Invariant : σ → Prop}
    (keeps : ∀ state input, Invariant state → Invariant (take state input).1)
    (start : Invariant state) : Invariant (takeAll take state inputs) := by
  induction inputs generalizing state with
  | nil => exact start
  | cons input rest ih => exact ih (keeps state input start)

/-- What such a reader answers to its inputs, one by one. -/
def answers (take : σ → ι → σ × Option ε) : σ → List ι → List (Option ε)
  | _, [] => []
  | state, input :: rest => (take state input).2 :: answers take (take state input).1 rest

/-- The inputs without those that it rejects. -/
def accepted (take : σ → ι → σ × Option ε) : σ → List ι → List ι
  | _, [] => []
  | state, input :: rest =>
    match take state input with
    | (next, none) => input :: accepted take next rest
    | (next, some _) => accepted take next rest

/-- Where rejected inputs leave a reader in a state that is alike, and alike states go along with
each other, the reader may as well be spared the rejected inputs. -/
theorem takeAll_accepted (Alike : σ → σ → Prop) {first second : σ}
    (accepts : ∀ first second input next, Alike first second →
      take first input = (next, none) →
        ∃ other, take second input = (other, none) ∧ Alike next other)
    (rejects : ∀ first second input next error, Alike first second →
      take first input = (next, some error) → Alike next second)
    (alike : Alike first second) :
    answers take second (accepted take first inputs) =
        (answers take first inputs).filter Option.isNone ∧
      Alike (takeAll take first inputs) (takeAll take second (accepted take first inputs)) := by
  induction inputs generalizing first second with
  | nil => exact ⟨rfl, alike⟩
  | cons input rest ih =>
    rcases taken : take first input with ⟨next, outcome⟩
    cases outcome with
    | none =>
      obtain ⟨other, also, onward⟩ := accepts first second input next alike taken
      obtain ⟨same, final⟩ := ih onward
      simp only [accepted, answers, takeAll_cons, taken, also]
      exact ⟨congrArg (none :: ·) same, final⟩
    | some error =>
      have onward := rejects first second input next error alike taken
      simp only [accepted, answers, takeAll_cons, taken]
      exact ih onward

end

end MemoryBoard.Document
