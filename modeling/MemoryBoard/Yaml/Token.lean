import MemoryBoard.Text.CodeText

set_option autoImplicit false

namespace MemoryBoard.Yaml

/-- A line that begins with a percent sign. -/
inductive Directive where
  | version (major : Nat)
  | tag (handle : List Char)
  | other
deriving DecidableEq, Repr

inductive TokenKind where
  | streamStart
  | streamEnd
  | directive (directive : Directive)
  | documentStart
  | documentEnd
  | blockSequenceStart
  | blockMappingStart
  | blockEnd
  | flowSequenceStart
  | flowSequenceEnd
  | flowMappingStart
  | flowMappingEnd
  | blockEntry
  | flowEntry
  | key
  | value
  | aliasNode
  | anchor
  /-- A tag with its handle, unless it is written out or stands alone. -/
  | tag (handle : Option (List Char))
  | scalar (text : Text.CodeText)
deriving DecidableEq, Repr

/-- A token and the line it starts in, counted from zero. -/
structure Token where
  kind : TokenKind
  line : Nat
deriving DecidableEq, Repr

def Token.directive? (token : Token) : Option Directive :=
  match token.kind with
  | .directive directive => some directive
  | _ => none

end MemoryBoard.Yaml
