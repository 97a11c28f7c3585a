import MazeDuel.Number.Shortest
/-!
Decimals with a given number of digits: scientific notation with a fixed number of places, and the
general notation that chooses between positional and scientific by the size of the value.
-/

namespace MazeDuel.Number

/-- The digits of a fraction rounded to `places + 1` significant ones, and the exponent of the
first. -/
def significant (places num den : Nat) : Nat × Int :=
  if num = 0 then (0, 0)
  else
    let lead := leadingExponent num den
    let shift := (places : Int) - lead
    let scaled := roundDiv (num * Nat.pow 10 shift.toNat) (den * Nat.pow 10 (-shift).toNat)
    if scaled = Nat.pow 10 (places + 1) then (Nat.pow 10 places, lead + 1) else (scaled, lead)

/-- Digits with a point after the first, and the exponent. The point can be kept at the end. -/
def scientificText (places : Nat) (keepPoint : Bool) (digits : Nat) (exponent : Int) : String :=
  let text := (padLeft '0' (places + 1) (toString digits)).toList
  String.ofList (text.take 1) ++ (if places = 0 && !keepPoint then "" else ".") ++
    String.ofList (text.drop 1) ++ "e" ++ (if exponent < 0 then "-" else "+") ++
    padLeft '0' 2 (toString exponent.natAbs)

/-- Takes zeros off the end of decimals, and the point with the last of them. -/
def dropZeros (text : List Char) : List Char :=
  if text.contains '.' then
    let short := (text.reverse.dropWhile (· == '0')).reverse
    if short.getLast? == some '.' then short.dropLast else short
  else text

def specialText (x : Float) : Option String :=
  match read x with
  | .finite _ _ _ => none
  | .infinite negative => some (if negative then "-inf" else "inf")
  | .notANumber => some "nan"

def scientific (places : Nat) (keepPoint : Bool) (x : Float) : String :=
  match read x with
  | .finite negative mantissa exponent =>
    let (num, den) := fraction mantissa exponent
    let (digits, lead) := significant places num den
    (if negative then "-" else "") ++ scientificText places keepPoint digits lead
  | _ => (specialText x).getD ""

def positional (places : Nat) (keepPoint : Bool) (x : Float) : String :=
  fixed places x ++ if keepPoint && places = 0 && (specialText x).isNone then "." else ""

/-- General notation with a number of significant digits: positional from `0.0001` up to as many
digits before the point as are asked for. Zeros at the end go unless they are to be kept. -/
def general (count : Nat) (keepZeros : Bool) (x : Float) : String :=
  match read x with
  | .finite negative mantissa exponent =>
    let places := max 1 count - 1
    let (num, den) := fraction mantissa exponent
    let (digits, lead) := significant places num den
    if -4 ≤ lead ∧ lead ≤ places then
      let text := positional (places - lead).toNat keepZeros x
      if keepZeros then text else String.ofList (dropZeros text.toList)
    else
      let text := (scientificText places keepZeros digits lead).toList
      let mantissaText := text.takeWhile (· != 'e')
      (if negative then "-" else "") ++
        String.ofList (if keepZeros then text
          else dropZeros mantissaText ++ text.dropWhile (· != 'e'))
  | _ => (specialText x).getD ""

/-- The whole part of a value, toward zero. -/
def wholePart (x : Float) : Option Int :=
  match read x with
  | .finite negative mantissa exponent =>
    let (num, den) := fraction mantissa exponent
    some (if negative then -Int.ofNat (num / den) else Int.ofNat (num / den))
  | _ => none

end MazeDuel.Number
