import MazeDuel.Document
import MazeDuel.Number.Scientific
/-!
Templates of messages: texts with places for values. A place begins with a percent sign and ends
with a letter that says how its value is shown; between the two stand flags, a width and a
precision. Two percent signs stand for one.
-/

namespace MazeDuel.Template

/-- What fills the places: values in order, or one object whose members are named by the places. -/
structure Supply where
  values : List Json
  named : Option Json := none

/-- A single value fills the places, and by name if it has members. A value that is not present
fills nothing. -/
def Supply.ofValue (value : Json) : Supply :=
  if !value.isPresent then { values := [] }
  else
    match value with
    | .list _ | .object _ => { values := [value], named := some value }
    | value => { values := [value] }

structure Slot where
  left : Bool := false
  plus : Bool := false
  blank : Bool := false
  alternate : Bool := false
  zeros : Bool := false
  width : Nat := 0
  precision : Option Nat := none

def Slot.withFlag (p : Slot) : Char → Option Slot
  | '-' => some { p with left := true }
  | '+' => some { p with plus := true }
  | ' ' => some { p with blank := true }
  | '#' => some { p with alternate := true }
  | '0' => some { p with zeros := true }
  | _ => none

def readFlags (p : Slot) : List Char → Slot × List Char
  | [] => (p, [])
  | c :: rest =>
    match p.withFlag c with
    | some p => readFlags p rest
    | none => (p, c :: rest)

def Supply.next (s : Supply) : Except Fault (Json × Supply) :=
  match s.values with
  | [] => .error .formatMismatch
  | value :: values => .ok (value, { s with values })

/-- Widths and precisions beyond this are refused. -/
def maxSize : Nat := 0x7fffffff

/-- A number in a template: digits, or a star for the next value. -/
def readSize (s : Supply) (text : List Char) : Except Fault (Int × Supply × List Char) :=
  match text with
  | '*' :: rest => do
    let (value, s) ← s.next
    match value.toInt with
    | .ok n => if maxSize < n.natAbs then .error .numberTooLarge else return (n, s, rest)
    | .error _ => .error .formatMismatch
  | _ =>
    let digits := text.takeWhile Char.isDigit
    let n := digits.foldl (fun n c => 10 * n + (c.toNat - 48)) 0
    if maxSize < n then .error .badTemplate else .ok (n, s, text.drop digits.length)

/-- The name in parentheses, and what follows it; parentheses inside it are paired. -/
def readKey (depth : Nat) : List Char → Option (List Char × List Char)
  | [] => none
  | c :: rest =>
    if c = ')' ∧ depth = 0 then some ([], rest)
    else
      let depth := if c = '(' then depth + 1 else if c = ')' then depth - 1 else depth
      (readKey depth rest).map fun found => (c :: found.1, found.2)

/-- Sets a text in a field of the width of a place. -/
def Slot.pad (p : Slot) (text : List Char) : List Char :=
  let fill := List.replicate (p.width - text.length) ' '
  if p.left then text ++ fill else fill ++ text

/-- Sets a number in its field. The sign, and a mark that comes after it, stand before zeros that
fill the field. -/
def Slot.padNumber (p : Slot) (negative : Bool) (mark digits : List Char) : List Char :=
  let sign := if negative then ['-'] else if p.plus then ['+'] else if p.blank then [' '] else []
  let front := sign ++ mark
  if p.zeros && !p.left then
    front ++ List.replicate (p.width - front.length - digits.length) '0' ++ digits
  else p.pad (front ++ digits)

def Slot.showText (p : Slot) (text : String) : List Char :=
  p.pad (match p.precision with
    | some n => text.toList.take n
    | none => text.toList)

/-- A whole number in a base, with at least as many digits as the precision says. -/
def Slot.showWhole (p : Slot) (base : Nat) (mark : List Char) (capital : Bool) (n : Int) :
    List Char :=
  let digits := Nat.toDigits base n.natAbs
  let digits := if capital then digits.map Char.toUpper else digits
  let digits := List.replicate (p.precision.getD 0 - digits.length) '0' ++ digits
  p.padNumber (n < 0) (if p.alternate then mark else []) digits

def Slot.showReal (p : Slot) (capital : Bool) (text : String) : List Char :=
  let chars := if capital then text.toList.map Char.toUpper else text.toList
  match chars with
  | '-' :: digits => p.padNumber true [] digits
  | digits => p.padNumber false [] digits

/-- A number as whole, without the places after its point. -/
def wholeOf : Json → Except Fault Int
  | .real x =>
    match Number.wholePart x with
    | some n => .ok n
    | none => .error (if x.isNaN then .badTemplate else .numberTooLarge)
  | value =>
    match value.toInt with
    | .ok n => .ok n
    | .error _ => .error .formatMismatch

def exactWholeOf (value : Json) : Except Fault Int :=
  match value.toInt with
  | .ok n => .ok n
  | .error _ => .error .formatMismatch

def realOf (value : Json) : Except Fault Float :=
  match Quantity.ofJson? value with
  | some (.real x) => .ok x
  | some q => if q.toFloat.isInf then .error .numberTooLarge else .ok q.toFloat
  | none => .error .formatMismatch

def characterOf : Json → Except Fault Char
  | .text text =>
    match text.toList with
    | [c] => .ok c
    | _ => .error .formatMismatch
  | value => do
    let n ← exactWholeOf value
    if n < 0 ∨ 0x110000 ≤ n then .error .numberTooLarge else .ok (Char.ofNat n.toNat)

/-- A text in which characters beyond ASCII are given by their numbers. -/
def plainChars (text : String) : List Char :=
  text.toList.flatMap fun c =>
    if c.toNat < 0x80 then [c]
    else if c.toNat < 0x100 then Text.backslash :: 'x' :: Text.hex 2 c.toNat
    else if c.toNat < 0x10000 then Text.backslash :: 'u' :: Text.hex 4 c.toNat
    else Text.backslash :: 'U' :: Text.hex 8 c.toNat

def defaultPrecision : Nat := 6

/-- A value in a place that ends with a given letter. -/
def Slot.show (p : Slot) (letter : Char) (value : Json) : Except Fault (List Char) :=
  let places := p.precision.getD defaultPrecision
  match letter with
  | 's' => .ok (p.showText value.plainText)
  | 'r' => .ok (p.showText value.display)
  | 'a' => .ok (p.showText (String.ofList (plainChars value.display)))
  | 'd' | 'i' | 'u' => do return p.showWhole 10 [] false (← wholeOf value)
  | 'x' => do return p.showWhole 16 ['0', 'x'] false (← exactWholeOf value)
  | 'X' => do return p.showWhole 16 ['0', 'X'] true (← exactWholeOf value)
  | 'o' => do return p.showWhole 8 ['0', 'o'] false (← exactWholeOf value)
  | 'c' => do return p.pad [← characterOf value]
  | 'f' => do return p.showReal false (Number.positional places p.alternate (← realOf value))
  | 'F' => do return p.showReal true (Number.positional places p.alternate (← realOf value))
  | 'e' => do return p.showReal false (Number.scientific places p.alternate (← realOf value))
  | 'E' => do return p.showReal true (Number.scientific places p.alternate (← realOf value))
  | 'g' => do return p.showReal false (Number.general places p.alternate (← realOf value))
  | 'G' => do return p.showReal true (Number.general places p.alternate (← realOf value))
  | _ => .error .badTemplate

/-- The value that a place asks for by name becomes the next one. -/
def readName (s : Supply) (text : List Char) : Except Fault (Supply × List Char) :=
  match text with
  | '(' :: rest =>
    match s.named with
    | none => .error .formatMismatch
    | some object =>
      match readKey 0 rest with
      | none => .error .badTemplate
      | some (key, rest) => do
        let value ← object.field (String.ofList key)
        return ({ s with values := [value] }, rest)
  | _ => .ok (s, text)

/-- Letters that may stand before the last one and mean nothing. -/
def dropLength : List Char → List Char
  | c :: rest => if c = 'h' ∨ c = 'l' ∨ c = 'L' then rest else c :: rest
  | [] => []

def renderPlace (s : Supply) (text : List Char) :
    Except Fault (List Char × Supply × List Char) := do
  let (s, text) ← readName s text
  let (p, text) := readFlags {} text
  let (width, s, text) ← readSize s text
  let p := { p with width := width.natAbs, left := p.left || width < 0 }
  let (p, s, text) ← match text with
    | '.' :: rest => do
      let (n, s, rest) ← readSize s rest
      pure ({ p with precision := some n.toNat }, s, rest)
    | _ => pure (p, s, text)
  match dropLength text with
  | [] => .error .badTemplate
  | letter :: rest => do
    let (value, s) ← s.next
    return (← p.show letter value, s, rest)

/-- The template from some point on. Every round takes at least one character, which bounds the
fuel. -/
def renderFrom (s : Supply) : Nat → List Char → Except Fault (List Char)
  | 0, _ => .ok []
  | _ + 1, [] =>
    if s.named.isNone && !s.values.isEmpty then .error .formatMismatch else .ok []
  | fuel + 1, '%' :: '%' :: rest => ('%' :: ·) <$> renderFrom s fuel rest
  | fuel + 1, '%' :: rest => do
    let (shown, s, rest) ← renderPlace s rest
    return shown ++ (← renderFrom s fuel rest)
  | fuel + 1, c :: rest => (c :: ·) <$> renderFrom s fuel rest

def render (template : String) (s : Supply) : Except Fault String :=
  String.ofList <$> renderFrom s (template.length + 1) template.toList

end MazeDuel.Template
