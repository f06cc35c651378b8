import MemoryBoard.Proofs.Latest
import MemoryBoard.Yaml.Event

set_option autoImplicit false

namespace MemoryBoard.Yaml

structure Outline where
  /-- For each open mapping the key whose value is due, from the innermost on. -/
  keys : List (Option Text.CodeText)
  /-- The values so far. -/
  assigned : List (List Text.CodeText × Text.CodeText)

/-- A scalar is a key or the value of one; the end of a mapping completes a value, too. -/
def Outline.step (outline : Outline) (event : Event) : Outline :=
  match event.kind, outline.keys with
  | .mappingStart, keys => { outline with keys := none :: keys }
  | .mappingEnd, _ :: keys => { outline with keys := keys.modifyHead fun _ => none }
  | .scalar, none :: keys => { outline with keys := some event.text :: keys }
  | .scalar, some key :: keys =>
    { keys := none :: keys
      assigned := outline.assigned ++ [(((some key :: keys).filterMap id).reverse, event.text)] }
  | _, _ => outline

def outline (events : List Event) : Outline :=
  events.foldl Outline.step ⟨[], []⟩

/-- The values in a stream, each with the keys that lead to it from the outermost on. -/
def assignments (events : List Event) : List (List Text.CodeText × Text.CodeText) :=
  (outline events).assigned

/-- The last value that some keys lead to. -/
def lastValue? (assigned : List (List Text.CodeText × Text.CodeText))
    (path : List Text.CodeText) : Option Text.CodeText :=
  latest? (fun entry => if entry.1 = path then some entry.2 else none) assigned

theorem outline_concat (events : List Event) (event : Event) :
    outline (events ++ [event]) = (outline events).step event := by
  rw [outline, List.foldl_append]
  rfl

theorem lastValue?_concat (assigned : List (List Text.CodeText × Text.CodeText))
    (path other : List Text.CodeText) (text : Text.CodeText) :
    lastValue? (assigned ++ [(other, text)]) path =
      if other = path then some text else lastValue? assigned path := by
  rw [lastValue?, latest?_concat]
  by_cases same : other = path
  · rw [if_pos same, if_pos same]
    rfl
  · rw [if_neg same, if_neg same]
    rfl

end MemoryBoard.Yaml
