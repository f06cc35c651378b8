import MemoryBoard.Diagnostics
import MemoryBoard.Text.Template

set_option autoImplicit false

namespace MemoryBoard

structure Monitor where
  /-- The list of categories as the environment has it. -/
  setting : Option String
  cached : Option Categories
deriving Repr

namespace Monitor

def initial : Monitor := ⟨none, none⟩

/-- The categories to show. -/
def categories (monitor : Monitor) : Categories :=
  monitor.cached.getD (.parse (monitor.setting.getD ""))

/-- The setting is not read again. -/
def settle (monitor : Monitor) : Monitor :=
  { monitor with cached := some monitor.categories }

def reset (monitor : Monitor) : Monitor :=
  { monitor with cached := none }

/-- Whether a category is shown, or any if none is named. -/
def shows (monitor : Monitor) : Option String → Bool
  | none => monitor.categories.any
  | some category => monitor.categories.shows category

/-- A message with its values. If they do not go together they stand one behind the other. -/
def message (template : String) (values : List Text.Value) : Except Defect String :=
  if values = [] then .ok template
  else match Text.Template.format template values with
    | .ok text => .ok text
    | .error .mismatch => .ok s!"{template} {Text.Value.quotedTuple values}"
    | .error (.defect cause) => .error cause

/-- The line for a message, empty if its category is not shown. -/
def line (monitor : Monitor) (category template : String) (values : List Text.Value) :
    Except Defect String :=
  if monitor.shows (some category) then do
    return (LogEntry.mk category (← message template values)).line
  else .ok ""

end Monitor

end MemoryBoard
