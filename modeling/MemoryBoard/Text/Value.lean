import MemoryBoard.Text.Quoted

set_option autoImplicit false

namespace MemoryBoard.Text

inductive Value where
  | none
  | bool (value : Bool)
  | int (value : Int)
  | text (value : String)
deriving DecidableEq, Repr, Inhabited

namespace Value

def ofBool (value : Bool) : String :=
  if value then "True" else "False"

/-- Texts stand in quotes. -/
def quoted : Value → String
  | none => "None"
  | bool value => ofBool value
  | int value => toString value
  | text value => quote value

/-- Texts stand in quotes and have nothing but ASCII characters. -/
def quotedAscii : Value → String
  | text value => quoteAscii value
  | value => value.quoted

/-- Texts stand as they are. -/
def plain : Value → String
  | text value => value
  | value => value.quoted

/-- Values in parentheses, with a comma behind a lone one. -/
def quotedTuple : List Value → String
  | [value] => s!"({value.quoted},)"
  | values => "(" ++ ", ".intercalate (values.map quoted) ++ ")"

end Value

end MemoryBoard.Text
