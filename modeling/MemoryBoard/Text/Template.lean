import MemoryBoard.Defect
import MemoryBoard.Rounding
import MemoryBoard.Text.Digits
import MemoryBoard.Text.Value

set_option autoImplicit false

namespace MemoryBoard.Text

namespace Template

/-- Why values cannot be put into a template. -/
inductive Fault where
  /-- The template is broken or does not go with the values. -/
  | mismatch
  | defect (cause : Defect)
deriving DecidableEq, Repr

/-- A place for a value. -/
structure Place where
  left : Bool := false
  sign : Bool := false
  blank : Bool := false
  alternate : Bool := false
  zero : Bool := false
  width : Option Nat := none
  precision : Option Nat := none
deriving DecidableEq, Repr

/-- The values still to be put in, and reading them. -/
abbrev Filling := StateT (List Value) (Except Fault)

def mismatch {α : Type} : Filling α :=
  throw .mismatch

def nextValue : Filling Value := do
  match ← get with
  | [] => mismatch
  | value :: rest =>
    set rest
    return value

def int? : Value → Option Int
  | .int value => some value
  | .bool value => some (if value then 1 else 0)
  | _ => none

def nextInt : Filling Int := do
  match int? (← nextValue) with
  | some value => return value
  | none => mismatch

/-- A value in its place: sign, marker of the base and body, filled up to the width. Zeros go behind
the marker, spaces in front of the sign. -/
def layOut (place : Place) (zero : Bool) (sign marker body : List Char) : List Char :=
  let length := sign.length + marker.length + body.length
  let missing := place.width.getD 0 - length
  if place.left then sign ++ marker ++ body ++ List.replicate missing ' '
  else if zero then sign ++ marker ++ List.replicate missing '0' ++ body
  else List.replicate missing ' ' ++ sign ++ marker ++ body

def signOf (place : Place) (negative : Bool) : List Char :=
  if negative then ['-'] else if place.sign then ['+'] else if place.blank then [' '] else []

/-- A text, cut off at the precision. -/
def layOutText (place : Place) (text : String) : List Char :=
  let body := match place.precision with
    | none => text.toList
    | some count => text.toList.take count
  layOut place false [] [] body

/-- A whole number with at least as many digits as the precision says. -/
def layOutInt (place : Place) (marker : List Char) (digits : Nat → List Char) (value : Int) :
    List Char :=
  let body := (digits value.natAbs).leftpad (place.precision.getD 0) '0'
  layOut place place.zero (signOf place (value < 0)) (if place.alternate then marker else []) body

/-- The first `count` significant digits, rounded, and the exponent of the first of them. There are
fewer if the number has no more. -/
def significant (count n : Nat) : List Char × Nat :=
  let digits := Nat.toDigits 10 n
  if digits.length ≤ count then (digits, digits.length - 1)
  else
    let rounded := Nat.toDigits 10 (roundDiv n (Nat.pow 10 (digits.length - count)))
    (rounded.take count, digits.length - 1 + (rounded.length - count))

/-- Digits with a point behind the first, unless nothing would follow it. -/
def pointed (alternate : Bool) : List Char → List Char
  | [] => []
  | first :: rest => first :: if rest = [] ∧ !alternate then [] else '.' :: rest

def exponentField (upper : Bool) (exponent : Nat) : List Char :=
  (if upper then 'E' else 'e') :: '+' :: (Nat.toDigits 10 exponent).leftpad 2 '0'

def scientific (alternate upper : Bool) (places n : Nat) : List Char :=
  let (digits, exponent) := significant (places + 1) n
  pointed alternate (digits.rightpad (places + 1) '0') ++ exponentField upper exponent

def fixed (alternate : Bool) (places n : Nat) : List Char :=
  let point := if places = 0 ∧ !alternate then [] else ['.']
  Nat.toDigits 10 n ++ point ++ List.replicate places '0'

/-- Fixed where the precision covers the number, scientific elsewhere; zeros at the end go. -/
def general (alternate upper : Bool) (precision n : Nat) : List Char :=
  let precision := max precision 1
  let (digits, exponent) := significant precision n
  if exponent < precision then
    fixed alternate (if alternate then precision - 1 - exponent else 0) n
  else
    let digits := if alternate then digits.rightpad precision '0'
      else (digits.reverse.dropWhile (· == '0')).reverse
    pointed alternate digits ++ exponentField upper exponent

def layOutReal (place : Place) (write : Nat → Nat → List Char) (value : Int) :
    Except Fault (List Char) :=
  let n := toDouble value.natAbs
  if n.log2 < 1024 then
    .ok (layOut place place.zero (signOf place (value < 0)) [] (write (place.precision.getD 6) n))
  else .error (.defect .overflow)

def flags (place : Place) : List Char → Place × List Char
  | '-' :: rest => flags { place with left := true } rest
  | '+' :: rest => flags { place with sign := true } rest
  | ' ' :: rest => flags { place with blank := true } rest
  | '#' :: rest => flags { place with alternate := true } rest
  | '0' :: rest => flags { place with zero := true } rest
  | rest => (place, rest)

/-- A number in the template, a star standing for the next value. The limit holds for both, and
negative values go one further. -/
def count (limit : Nat) (text : List Char) : Filling (Option Int × List Char) := do
  match text with
  | '*' :: rest =>
    let value ← nextInt
    if value < -limit - 1 ∨ limit < value then throw (.defect .overflow)
    return (some value, rest)
  | _ =>
    let digits := text.takeWhile Char.isDigit
    if digits = [] then return (none, text)
    let value := positional 10 digits
    if limit < value then mismatch
    return (some value, text.drop digits.length)

def widthLimit : Nat := 0x7fffffffffffffff

def precisionLimit : Nat := 0x7fffffff

/-- Reads a width. A negative one is for the left; the least of all has no positive counterpart and
is no width. -/
def width (place : Place) (text : List Char) : Filling (Place × List Char) := do
  let (value, rest) ← count widthLimit text
  match value with
  | none => return (place, rest)
  | some value =>
    let width := if widthLimit < value.natAbs then none else some value.natAbs
    return ({ place with width, left := place.left || value < 0 }, rest)

def precision (place : Place) (text : List Char) : Filling (Place × List Char) := do
  match text with
  | '.' :: rest =>
    let (value, rest) ← count precisionLimit rest
    return ({ place with precision := some (value.getD 0).toNat }, rest)
  | _ => return (place, text)

/-- Letters for the size of a number say nothing. -/
def skipSize : List Char → List Char
  | 'h' :: rest => rest
  | 'l' :: rest => rest
  | 'L' :: rest => rest
  | rest => rest

def character (place : Place) (value : Value) : Filling (List Char) := do
  match value, int? value with
  | .text text, _ =>
    if text.length = 1 then return layOut place false [] [] text.toList else mismatch
  | _, some code =>
    if code < 0 ∨ 0x10ffff < code then throw (.defect .overflow)
    return layOut place false [] [] [Char.ofNat code.toNat]
  | _, none => mismatch

/-- The most digits that a whole number may be asked to have: sign and marker count too. -/
def digitLimit : Nat := precisionLimit - 3

/-- Writes the next value in the way of a letter. -/
def convert (place : Place) (letter : Char) : Filling (List Char) := do
  let value ← nextValue
  let whole (marker : List Char) (digits : Nat → List Char) : Filling (List Char) := do
    match int? value with
    | some value =>
      if digitLimit < place.precision.getD 0 then throw (.defect .overflow)
      return layOutInt place marker digits value
    | none => mismatch
  let real (write : Nat → Nat → List Char) : Filling (List Char) := do
    match int? value with
    | some value => layOutReal place write value
    | none => mismatch
  match letter with
  | 's' => return layOutText place value.plain
  | 'r' => return layOutText place value.quoted
  | 'a' => return layOutText place value.quotedAscii
  | 'c' => character place value
  | 'd' => whole [] (Nat.toDigits 10)
  | 'i' => whole [] (Nat.toDigits 10)
  | 'u' => whole [] (Nat.toDigits 10)
  | 'o' => whole ['0', 'o'] (Nat.toDigits 8)
  | 'x' => whole ['0', 'x'] lowerHex
  | 'X' => whole ['0', 'X'] upperHex
  | 'e' => real (scientific place.alternate false)
  | 'E' => real (scientific place.alternate true)
  | 'f' => real (fixed place.alternate)
  | 'F' => real (fixed place.alternate)
  | 'g' => real (general place.alternate false)
  | 'G' => real (general place.alternate true)
  | _ => mismatch

/-- The longest text that there is room for. -/
def textLimit : Nat := 0x7fffffff

/-- Fills one place, whose percent sign has been taken. A second one right behind it stands for
itself. -/
def fill (text : List Char) : Filling (List Char × List Char) := do
  if text.head? = some '%' then return (['%'], text.tail)
  let (place, text) := flags {} text
  let (place, text) ← width place text
  let (place, text) ← precision place text
  match skipSize text with
  | [] => mismatch
  | letter :: rest =>
    if place.width.getD 0 ≤ textLimit then return (← convert place letter, rest)
    discard (convert { place with width := none } letter)
    throw (.defect .tooLong)

/-- Fills place after place. Every value has to find one. -/
def fillFrom : Nat → List (List Char) → List Char → Filling (List (List Char))
  | 0, _, _ => mismatch
  | fuel + 1, done, text => do
    let plain := text.takeWhile (· != '%')
    match text.drop plain.length with
    | [] =>
      if (← get) ≠ [] then mismatch
      return (plain :: done).reverse
    | _ :: rest =>
      let (filled, rest) ← fill rest
      fillFrom fuel (filled :: plain :: done) rest

/-- The template with the values in its places. -/
def format (template : String) (values : List Value) : Except Fault String :=
  let text := template.toList
  match (fillFrom (text.length + 1) [] text).run values with
  | .ok (parts, _) => .ok (String.ofList parts.flatten)
  | .error fault => .error fault

end Template

end MemoryBoard.Text
