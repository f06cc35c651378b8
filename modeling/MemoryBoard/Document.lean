import MemoryBoard.Yaml.EventStream

set_option autoImplicit false

namespace MemoryBoard.Document

open Yaml

/-- Feeds events until the reader is done. `ending` is the error for events that end before. The
state is given along with an error too, with what was taken up to there. -/
def consume {σ ε : Type} (feed : σ → Event → σ × Option ε) (done : σ → Bool) (ending : ε) :
    σ → List Event → σ × Option ε
  | state, [] => (state, some ending)
  | state, event :: rest =>
    match feed state event with
    | (state, some error) => (state, some error)
    | (state, none) =>
      if done state then (state, none) else consume feed done ending state rest

/-- How a message names an event that has no place where it stands. -/
def unexpected (kind : EventKind) (line : Option Int) : String :=
  match line with
  | none => s!"unexpected {kind.label} event"
  | some line => s!"unexpected {kind.label} event at line {line}"

/-- What messages say about a text that is not YAML. -/
def notYaml : String := "<yaml>"

end MemoryBoard.Document
