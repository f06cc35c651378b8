import MemoryBoard.Text.DecimalDigit

set_option autoImplicit false

/- Options on a command line. An option has a long name and mostly a short one. Its value is the
next word, or stands in the same word behind an equals sign or right behind the short name. Long
names may be cut off where that leaves one option only. Each option changes a draft of the command
as soon as it is read, so the first fault on the line decides. -/
namespace MemoryBoard.CommandLine

/-- What an option that takes a value has got. -/
inductive Argument (α : Type) where
  /-- No value: two dashes in the option's own word are taken away. -/
  | void
  | value (value : α)
deriving DecidableEq, Repr

namespace Argument

/-- The value in the same word as the option. -/
def ofAttached (text : String) : Argument String :=
  if text = "--" then void else value text

def value? {α : Type} : Argument α → Option α
  | void => none
  | value a => some a

/-- Reads the value, if there is one. -/
def read? {α β : Type} (read : α → Option β) : Argument α → Option (Argument β)
  | void => some void
  | value a => (read a).map value

theorem read?_void {α β : Type} (read : α → Option β) : (void.read? read) = some void :=
  rfl

theorem read?_value {α β : Type} (read : α → Option β) (a : α) :
    (value a).read? read = (read a).map value :=
  rfl

end Argument

/-- How the reading of a command line ends. -/
inductive Outcome (α : Type) where
  /-- The command line cannot be used. -/
  | misuse
  | help
  | use (value : α)
deriving Repr

namespace Outcome

def ofOption {α : Type} : Option α → Outcome α
  | none => misuse
  | some value => use value

/-- Goes on with what can be used. -/
def bind {α β : Type} (outcome : Outcome α) (next : α → Outcome β) : Outcome β :=
  match outcome with
  | misuse => misuse
  | help => help
  | use value => next value

instance : Monad Outcome where
  pure := use
  bind := bind

theorem misuse_bind {α β : Type} (next : α → Outcome β) : (misuse >>= next) = misuse :=
  rfl

theorem help_bind {α β : Type} (next : α → Outcome β) : (help >>= next) = help :=
  rfl

theorem use_bind {α β : Type} (value : α) (next : α → Outcome β) :
    (use value >>= next) = next value :=
  rfl

end Outcome

/-- What an option does to the draft of a command. -/
inductive Effect (σ : Type) where
  /-- Asks for help. -/
  | help
  /-- Takes no value. -/
  | mark (set : σ → σ)
  /-- Takes a value, and may refuse it. -/
  | value (take : σ → Argument String → Option σ)

/-- An option by its names, without their dashes. -/
structure OptionSpec (σ : Type) where
  long : String
  short : Option Char
  effect : Effect σ

variable {σ : Type}

namespace OptionSpec

/-- Asks for help. Every command has it. -/
def help : OptionSpec σ := ⟨"help", some 'h', .help⟩

def takesValue (spec : OptionSpec σ) : Bool :=
  match spec.effect with
  | .value _ => true
  | _ => false

def longName (spec : OptionSpec σ) : List Char :=
  '-' :: '-' :: spec.long.toList

def shortName? (spec : OptionSpec σ) : Option (List Char) :=
  spec.short.map fun c => ['-', c]

def isNamed (spec : OptionSpec σ) (word : List Char) : Bool :=
  word == spec.longName || spec.shortName? == some word

/-- The draft that the option leaves. -/
def apply (spec : OptionSpec σ) (argument : Option (Argument String)) (draft : σ) : Outcome σ :=
  match spec.effect, argument with
  | .help, _ => .help
  | .mark set, _ => .use (set draft)
  | .value take, some argument => .ofOption (take draft argument)
  | .value _, none => .misuse

/-- The draft that options without values leave. -/
def applyAll (draft : σ) : List (OptionSpec σ) → Outcome σ
  | [] => .use draft
  | spec :: rest => do applyAll (← spec.apply none draft) rest

end OptionSpec

/-- What a word is before the ones around it are looked at. -/
inductive Word (σ : Type) where
  /-- A value or an argument that belongs to no option. -/
  | plain (text : String)
  /-- An option, the value that stands in the same word, and the short options without a value that
  stand in front of it in that word. -/
  | option (marks : List (OptionSpec σ)) (spec : OptionSpec σ) (value : Option String)
  /-- Two dashes: no options follow. -/
  | separator
  /-- An option with something behind it that it does not take. -/
  | overfull
  | unknown
  | ambiguous

/-- A dash and digits, perhaps with a point among them and a line feed behind, is a number and no
option. -/
def isNegativeNumber : List Char → Bool
  | '-' :: number =>
    let number := if number.getLast? = some '\n' then number.dropLast else number
    let whole := number.takeWhile Text.isDecimalDigit
    match number.drop whole.length with
    | [] => whole ≠ []
    | '.' :: fraction => fraction ≠ [] && fraction.all Text.isDecimalDigit
    | _ => false
  | _ => false

/-- The word of a short option without a value, in front of further short options. The last of them
may take what is left as its value. -/
def bundle (specs marks : List (OptionSpec σ)) : List Char → Word σ
  | [] => .overfull
  | letter :: rest =>
    match specs.find? (·.short = some letter) with
    | none => .overfull
    | some spec =>
      if rest = [] then .option marks spec none
      else if spec.takesValue then .option marks spec (some (String.ofList rest))
      else bundle specs (marks ++ [spec]) rest

/-- The word of an option with what stands behind its name. -/
def attach (specs : List (OptionSpec σ)) (isShort : Bool) (spec : OptionSpec σ) :
    Option (List Char) → Word σ
  | none => .option [] spec none
  | some text =>
    if spec.takesValue then .option [] spec (some (String.ofList text))
    else if isShort then bundle specs [spec] text
    else .overfull

/-- The options that a word may abbreviate, each with what stands behind the name. -/
def abbreviated (specs : List (OptionSpec σ)) (word : List Char) :
    List (OptionSpec σ × Option (List Char)) :=
  match word with
  | '-' :: '-' :: _ =>
    let name := word.takeWhile (· != '=')
    let value := match word.drop name.length with
      | [] => none
      | _ :: value => some value
    (specs.filter (name.isPrefixOf ·.longName)).map (·, value)
  | dash :: letter :: value =>
    (specs.filter (·.shortName? = some [dash, letter])).map (·, some value)
  | _ => []

/-- What a word is, unless it comes behind two dashes. -/
def classify (specs : List (OptionSpec σ)) (text : String) : Word σ :=
  let word := text.toList
  let isShort := word[1]? ≠ some '-'
  if word = ['-', '-'] then .separator
  else if word.head? ≠ some '-' ∨ word = ['-'] then .plain text
  else match specs.find? (·.isNamed word) with
    | some spec => .option [] spec none
    | none =>
      let name := word.takeWhile (· != '=')
      let named := if word.contains '=' then specs.find? (·.isNamed name) else none
      match named with
      | some spec => attach specs isShort spec (some (word.drop (name.length + 1)))
      | none =>
        match abbreviated specs word with
        | [(spec, value)] => attach specs isShort spec value
        | _ :: _ :: _ => .ambiguous
        | [] => if isNegativeNumber word ∨ word.contains ' ' then .plain text else .unknown

/-- The words of a command line. Behind two dashes all are plain. -/
def classifyAll (specs : List (OptionSpec σ)) : List String → List (Word σ)
  | [] => []
  | text :: rest =>
    match classify specs text with
    | .separator => .separator :: rest.map .plain
    | word => word :: classifyAll specs rest

/-- Reads on with the draft that the options so far have left. `misplaced` tells whether a word was
met that no option takes. Help is given as soon as it is asked for. -/
def collect (misplaced : Bool) (draft : σ) : List (Word σ) → Outcome σ
  | [] => if misplaced then .misuse else .use draft
  | .option marks spec value :: rest =>
    match spec.takesValue, value, rest with
    | true, none, .plain text :: rest => do
      let draft ← OptionSpec.applyAll draft marks
      collect misplaced (← spec.apply (some (.value text)) draft) rest
    | true, none, _ => .misuse
    | _, value, rest => do
      let draft ← OptionSpec.applyAll draft marks
      collect misplaced (← spec.apply (value.map .ofAttached) draft) rest
  | .overfull :: _ => .misuse
  | _ :: rest => collect true draft rest

def Word.isAmbiguous : Word σ → Bool
  | .ambiguous => true
  | _ => false

/-- The draft that the options on a command line leave. -/
def readOptions (specs : List (OptionSpec σ)) (draft : σ) (words : List String) : Outcome σ :=
  let words := classifyAll (.help :: specs) words
  if words.any (·.isAmbiguous) then .misuse else collect false draft words

end MemoryBoard.CommandLine
