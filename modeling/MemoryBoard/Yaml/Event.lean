import MemoryBoard.Text.CodeText

set_option autoImplicit false

namespace MemoryBoard.Yaml

inductive EventKind where
  | streamStart
  | streamEnd
  | documentStart
  | documentEnd
  | mappingStart
  | mappingEnd
  | sequenceStart
  | sequenceEnd
  | scalar
  | aliasNode
deriving DecidableEq, Repr

def EventKind.label : EventKind → String
  | streamStart => "stream-start"
  | streamEnd => "stream-end"
  | documentStart => "document-start"
  | documentEnd => "document-end"
  | mappingStart => "mapping-start"
  | mappingEnd => "mapping-end"
  | sequenceStart => "sequence-start"
  | sequenceEnd => "sequence-end"
  | scalar => "scalar"
  | aliasNode => "alias"

/-- An event with the text of a scalar and the line it starts in, counted from one. -/
structure Event where
  kind : EventKind
  value : Option Text.CodeText
  line : Option Int
deriving DecidableEq, Repr

/-- The text of a scalar, empty if there is none. -/
def Event.text (event : Event) : Text.CodeText :=
  event.value.getD []

end MemoryBoard.Yaml
