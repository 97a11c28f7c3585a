import MazeDuel.Number.Double
/-!
Shortest decimals: the fewest significant digits that still read back as the same float and, of
those, the decimal nearest to it.
-/

namespace MazeDuel.Number

structure Decimal where
  digits : Nat
  scale : Int
  deriving DecidableEq, Repr

/--
The reals that round to a positive float, as `low`, `value` and `high` over one denominator.
The gap below a power of two is half the gap above it; the ends belong to the interval when the
mantissa is even.
-/
structure Interval where
  low : Nat
  value : Nat
  high : Nat
  den : Nat
  closed : Bool

def Interval.of (mantissa : Nat) (exponent : Int) : Interval :=
  let below := if mantissa = hiddenBit ∧ exponent ≠ -1074 then 1 else 2
  let (unit, den) := fraction 1 (exponent - 2)
  ⟨(4 * mantissa - below) * unit, 4 * mantissa * unit, (4 * mantissa + 2) * unit, den,
    mantissa % 2 = 0⟩

def Interval.holds (i : Interval) (num den : Nat) : Bool :=
  if i.closed then i.low * den ≤ num * i.den && num * i.den ≤ i.high * den
  else i.low * den < num * i.den && num * i.den < i.high * den

/-- The two grid points next to the value on the grid of multiples of `10 ^ scale`. -/
def Interval.onGrid (i : Interval) (scale : Int) : Option Nat :=
  let up := Nat.pow 10 scale.toNat
  let down := Nat.pow 10 (-scale).toNat
  let below := i.value * down / (i.den * up)
  let lowHit := i.holds (below * up) down
  let highHit := i.holds ((below + 1) * up) down
  let toBelow := i.value * down - below * up * i.den
  let toAbove := (below + 1) * up * i.den - i.value * down
  if lowHit && highHit then
    if toBelow < toAbove then some below
    else if toAbove < toBelow then some (below + 1)
    else if below % 2 = 0 then some below else some (below + 1)
  else if lowHit then some below
  else if highHit then some (below + 1)
  else none

/-- The exponent of the leading decimal digit of a positive fraction. -/
def leadingExponent (num den : Nat) : Int :=
  if den ≤ num then ((toString (num / den)).length : Int) - 1
  else
    let digits := (toString (den / num)).length
    if num * Nat.pow 10 digits < den * 10 then -(digits : Int) else 1 - (digits : Int)

/-- Tries one digit, then two, and so on; seventeen are always enough. -/
def Interval.search (i : Interval) (lead : Int) : Nat → Nat → Decimal
  | 0, _ => ⟨0, 0⟩
  | fuel + 1, count =>
    let scale := lead - (count : Int) + 1
    match i.onGrid scale with
    | some digits => ⟨digits, scale⟩
    | none => i.search lead fuel (count + 1)

/-- Takes factors of ten out of the digits. -/
def Decimal.trim : Nat → Decimal → Decimal
  | 0, d => d
  | fuel + 1, d =>
    if d.digits ≠ 0 ∧ d.digits % 10 = 0 then Decimal.trim fuel ⟨d.digits / 10, d.scale + 1⟩ else d

def shortest (mantissa : Nat) (exponent : Int) : Decimal :=
  if mantissa = 0 then ⟨0, 0⟩
  else
    let i := Interval.of mantissa exponent
    (i.search (leadingExponent i.value i.den) 18 1).trim 20

/--
How a decimal is laid out: numbers whose point falls at most `widest` places after the first digit,
and not more than `leadingZeros` zeros before it, are positional; the others have an exponent of
at least two digits.
-/
structure Layout where
  widest : Int
  leadingZeros : Int
  infinity : String
  notANumber : String

/-- Positional from `0.0001` up to below `10 ^ 16`. -/
def Layout.plain : Layout := ⟨16, 3, "inf", "nan"⟩

def Decimal.render (l : Layout) (d : Decimal) : String :=
  let text := toString d.digits
  let point : Int := text.length + d.scale
  if -l.leadingZeros ≤ point ∧ point ≤ l.widest then
    if point ≤ 0 then "0." ++ String.ofList (List.replicate (-point).toNat '0') ++ text
    else if (text.length : Int) ≤ point then
      text ++ String.ofList (List.replicate (point.toNat - text.length) '0') ++ ".0"
    else
      String.ofList (text.toList.take point.toNat) ++ "." ++
        String.ofList (text.toList.drop point.toNat)
  else
    let exponent := point - 1
    let head := String.ofList (text.toList.take 1)
    let tail := String.ofList (text.toList.drop 1)
    head ++ (if tail.isEmpty then "" else "." ++ tail) ++ "e" ++
      (if exponent < 0 then "-" else "+") ++ padLeft '0' 2 (toString exponent.natAbs)

def render (l : Layout) (x : Float) : String :=
  match read x with
  | .finite negative mantissa exponent =>
    (if negative then "-" else "") ++ (shortest mantissa exponent).render l
  | .infinite negative => (if negative then "-" else "") ++ l.infinity
  | .notANumber => l.notANumber

end MazeDuel.Number
