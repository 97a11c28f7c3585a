/-!
What a 64-bit float stands for: a sign and `mantissa * 2 ^ exponent`, an infinity, or no number.
Rounding of such values to whole numbers and to decimals with a fixed number of places is done in
natural arithmetic, so no digit depends on how the machine prints.
-/

namespace MazeDuel.Number

inductive Reading where
  | finite (negative : Bool) (mantissa : Nat) (exponent : Int)
  | infinite (negative : Bool)
  | notANumber
  deriving DecidableEq, Repr

/-- The leading bit that a fraction field leaves out, and the size of that field. -/
def hiddenBit : Nat := 0x10000000000000

/-- Reads sign, exponent field and fraction field; a zero exponent field has no hidden bit. -/
def read (x : Float) : Reading :=
  let bits := x.toBits.toNat
  let negative := bits / 0x8000000000000000 == 1
  let field : Nat := bits / hiddenBit % 2048
  let fraction := bits % hiddenBit
  if field = 2047 then if fraction = 0 then .infinite negative else .notANumber
  else if field = 0 then .finite negative fraction (-1074)
  else .finite negative (fraction + hiddenBit) (Int.ofNat field - 1075)

/-- The fraction `mantissa * 2 ^ exponent` as a pair of numerator and denominator. -/
def fraction (mantissa : Nat) (exponent : Int) : Nat × Nat :=
  if 0 ≤ exponent then (mantissa * Nat.pow 2 exponent.toNat, 1)
  else (mantissa, Nat.pow 2 (-exponent).toNat)

/-- The nearest whole number to `num / den`; a half goes to the even neighbour. -/
def roundDiv (num den : Nat) : Nat :=
  let low := num / den
  let twice := 2 * (num % den)
  if twice < den then low
  else if den < twice then low + 1
  else if low % 2 = 0 then low else low + 1

def ceiling (x : Float) : Option Int :=
  match read x with
  | .finite negative mantissa exponent =>
    let (num, den) := fraction mantissa exponent
    some (if negative then -Int.ofNat (num / den) else Int.ofNat ((num + den - 1) / den))
  | _ => none

/-- How a whole number compares with the value of a float, digit by digit; with no number nothing
compares. -/
def compareWhole (n : Int) (x : Float) : Option Ordering :=
  match read x with
  | .finite negative mantissa exponent =>
    let (num, den) := fraction mantissa exponent
    some (compare (n * den) (if negative then -Int.ofNat num else Int.ofNat num))
  | .infinite negative => some (if negative then .gt else .lt)
  | .notANumber => none

/-- The float nearest to `num / den`, for quotients that are not tiny: the quotient is scaled to a
mantissa with its leading bit in place. -/
def quotient (num den : Nat) : Float :=
  if num = 0 then 0
  else
    let scaled (shift : Int) : Nat × Nat :=
      (num * Nat.pow 2 shift.toNat, den * Nat.pow 2 (-shift).toNat)
    let guess : Int := 52 - (Int.ofNat num.log2 - Int.ofNat den.log2)
    let shift := if (scaled guess).1 / (scaled guess).2 < hiddenBit then guess + 1 else guess
    Float.scaleB (Float.ofNat (roundDiv (scaled shift).1 (scaled shift).2)) (-shift)

/-- Zeros in front of a text up to a given length. -/
def padLeft (fill : Char) (width : Nat) (text : String) : String :=
  String.ofList (List.replicate (width - text.length) fill) ++ text

/-- Decimal text with exactly `places` digits after the point; the sign of zero is kept. -/
def fixed (places : Nat) (x : Float) : String :=
  match read x with
  | .finite negative mantissa exponent =>
    let (num, den) := fraction mantissa exponent
    let grid := Nat.pow 10 places
    let scaled := roundDiv (num * grid) den
    let whole := toString (scaled / grid)
    let tail := padLeft '0' places (toString (scaled % grid))
    (if negative then "-" else "") ++ whole ++ if places = 0 then "" else "." ++ tail
  | .infinite negative => if negative then "-inf" else "inf"
  | .notANumber => "nan"

/-- The float nearest to the value rounded to `places` decimals. -/
def roundPlaces (places : Nat) (x : Float) : Float :=
  match read x with
  | .finite negative mantissa exponent =>
    let (num, den) := fraction mantissa exponent
    let near := Float.ofScientific (roundDiv (num * Nat.pow 10 places) den) true places
    if negative then -near else near
  | _ => x

end MazeDuel.Number
